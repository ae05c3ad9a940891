import TrackerLinks.Proofs.Reference.Occurrence
import TrackerLinks.Proofs.Text.Returns

namespace TrackerLinks

variable {spelling : Spelling} {text rest : Text}

namespace Spelling

/-- The spelling when there are returns. The number has no line feed. -/
def withReturns (spelling : Spelling) : Spelling :=
  { spelling with
    beforeHash := Text.withReturns spelling.beforeHash
    afterHash := Text.withReturns spelling.afterHash
    afterNumber := Text.withReturns spelling.afterNumber }

/-- The spelling without carriage returns. -/
def dropReturns (spelling : Spelling) : Spelling :=
  { spelling with
    beforeHash := spelling.beforeHash.filter (· ≠ '\r')
    afterHash := spelling.afterHash.filter (· ≠ '\r')
    afterNumber := spelling.afterNumber.filter (· ≠ '\r') }

theorem WellFormed.not_mem_number (h : spelling.WellFormed) {c : Char} (other : ¬ isDigit c) :
    c ∉ spelling.number :=
  fun member => other (h.number c member)

theorem isBlank_of_mem_withReturns (blank : ∀ c ∈ text, Text.isBlank c) :
    ∀ c ∈ Text.withReturns text, Text.isBlank c := by
  intro c member
  obtain ⟨b, inside, spelled⟩ := List.mem_flatMap.mp member
  split at spelled
  · simp only [List.mem_cons, List.not_mem_nil, or_false] at spelled
    rcases spelled with rfl | rfl <;> rfl
  · rw [List.mem_singleton.mp spelled]
    exact blank b inside

theorem WellFormed.withReturns (h : spelling.WellFormed) : spelling.withReturns.WellFormed where
  beforeHash := isBlank_of_mem_withReturns h.beforeHash
  afterHash := isBlank_of_mem_withReturns h.afterHash
  number := h.number
  number_ne_nil := h.number_ne_nil
  afterNumber := isBlank_of_mem_withReturns h.afterNumber

theorem WellFormed.dropReturns (h : spelling.WellFormed) : spelling.dropReturns.WellFormed where
  beforeHash c member := h.beforeHash c (List.mem_filter.mp member).1
  afterHash c member := h.afterHash c (List.mem_filter.mp member).1
  number := h.number
  number_ne_nil := h.number_ne_nil
  afterNumber c member := h.afterNumber c (List.mem_filter.mp member).1

theorem WellFormed.text_withReturns (h : spelling.WellFormed) :
    spelling.withReturns.text = Text.withReturns spelling.text := by
  have number := Text.withReturns_of_not_mem (h.not_mem_number (c := '\n') (by decide))
  have hash : '#' ≠ '\n' := by decide
  have opening : '(' ≠ '\n' := by decide
  simp only [text, Text.withReturns_append, Text.withReturns_cons opening,
    Text.withReturns_cons hash, number]
  rfl

theorem WellFormed.text_dropReturns (h : spelling.WellFormed) :
    spelling.dropReturns.text = spelling.text.filter (· ≠ '\r') := by
  have number : spelling.number.filter (· ≠ '\r') = spelling.number := by
    apply List.filter_eq_self.mpr
    intro c member
    rw [decide_eq_true_eq]
    intro equal
    exact h.not_mem_number (by decide) (equal ▸ member)
  simp only [text, List.filter_cons, List.filter_append, number]
  rfl

theorem ofText?_withReturns (absent : '\r' ∉ text) :
    ofText? (Text.withReturns text) =
      (ofText? text).map fun (spelling, rest) => (spelling.withReturns, Text.withReturns rest) := by
  cases found : ofText? text with
  | some parts =>
      obtain ⟨spelling, rest⟩ := parts
      obtain ⟨wellFormed, rfl⟩ := ofText?_eq_some_iff.mp found
      rw [Text.withReturns_append, ← wellFormed.text_withReturns,
        ofText?_text_append wellFormed.withReturns]
      rfl
  | none =>
      cases found' : ofText? (Text.withReturns text) with
      | none => rfl
      | some parts =>
          -- Without its returns, a reference in the longer text is one in the text itself.
          obtain ⟨spelling, rest⟩ := parts
          obtain ⟨wellFormed, same⟩ := ofText?_eq_some_iff.mp found'
          have original := congrArg (List.filter (· ≠ '\r')) same
          rw [Text.filter_withReturns absent, List.filter_append, ← wellFormed.text_dropReturns]
            at original
          rw [original, ofText?_text_append wellFormed.dropReturns] at found
          cases found

theorem ofText?_of_ne {c : Char} (different : c ≠ '(') (rest : Text) : ofText? (c :: rest) = none := by
  rw [ofText?]
  intro _ equal
  exact different (List.head_eq_of_cons_eq equal)

end Spelling

namespace Reference

variable {reference : Reference} {offset : Nat}

/-- The same reference when the text has returns. -/
def withReturns (text : Text) (reference : Reference) : Reference :=
  ⟨Text.moved text reference.start, reference.spelling.withReturns⟩

theorem inTextFrom_withReturns (before rest : Text) (place : Text.size before = offset)
    (absent : '\r' ∉ rest) :
    inTextFrom (Text.size (Text.withReturns before)) (Text.withReturns rest) =
      (inTextFrom offset rest).map (withReturns (before ++ rest)) := by
  fun_induction inTextFrom offset rest generalizing before with
  | case1 offset => simp [inTextFrom]
  | case2 offset c rest none ih =>
      have step := ih (before ++ [c]) (by simp [place]) (List.not_mem_of_not_mem_cons absent)
      rw [List.append_assoc, List.singleton_append] at step
      rw [← step, Text.withReturns_append, Text.size_append]
      by_cases feed : c = '\n'
      · subst feed
        rw [Text.withReturns_feed, inTextFrom_of_ofText?_eq_none _
            (Spelling.ofText?_of_ne (by decide) _),
          inTextFrom_of_ofText?_eq_none _ (Spelling.ofText?_of_ne (by decide) _), Nat.add_assoc]
        rfl
      · have none' := Spelling.ofText?_withReturns absent
        rw [none, Text.withReturns_cons feed] at none'
        rw [Text.withReturns_cons feed, inTextFrom_of_ofText?_eq_none _ none',
          Text.withReturns_cons feed]
        rfl
  | case3 offset c rest spelling after found ih =>
      subst place
      obtain ⟨wellFormed, same⟩ := Spelling.ofText?_eq_some_iff.mp found
      have found' := Spelling.ofText?_withReturns absent
      have absent' : '\r' ∉ after := by
        intro member
        apply absent
        rw [same]
        exact List.mem_append_right _ member
      have step := ih (before ++ spelling.text) (by simp) absent'
      rw [List.append_assoc, ← same, Text.withReturns_append, Text.size_append,
        ← wellFormed.text_withReturns] at step
      obtain ⟨d, rest', whole⟩ := List.exists_cons_of_ne_nil
        (Text.withReturns_ne_nil (List.cons_ne_nil c rest))
      rw [found, whole] at found'
      rw [whole, inTextFrom_of_ofText?_eq_some _ found', step, List.map_cons, withReturns,
        Text.moved_append]

theorem inText_withReturns (absent : '\r' ∉ text) :
    inText (Text.withReturns text) = (inText text).map (withReturns text) :=
  inTextFrom_withReturns [] text Text.size_nil absent

end Reference

end TrackerLinks
