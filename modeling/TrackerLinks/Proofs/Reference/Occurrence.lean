import Mathlib.Data.List.Sort
import TrackerLinks.Proofs.Reference.Spelling

namespace TrackerLinks.Reference

variable {reference : Reference} {text : Text}

theorem mem_inTextFrom_iff (before rest : Text) {offset : Nat} (place : Text.size before = offset) :
    reference ∈ inTextFrom offset rest ↔
      reference.spelling.WellFormed ∧ offset ≤ reference.start ∧
        Text.OccursAt reference.spelling.text (before ++ rest) reference.start := by
  fun_induction inTextFrom offset rest generalizing before with
  | case1 offset =>
      subst place
      constructor
      · intro member
        cases member
      · intro h
        obtain ⟨_, reached, occurs⟩ := h
        have bound := occurs.stop_le
        have nonempty := reference.spelling.size_text_pos
        rw [List.append_nil] at bound
        omega
  | case2 offset c rest none ih =>
      subst place
      have step := ih (before ++ [c]) (by simp)
      rw [List.append_assoc] at step
      rw [step]
      apply and_congr_right
      intro wellFormed
      constructor
      · intro h
        exact ⟨by omega, h.2⟩
      · intro h
        obtain ⟨reached, occurs⟩ := h
        refine ⟨?_, occurs⟩
        rcases Text.start_eq_or_le_of_occursAt reached occurs with here | later
        · rw [here, Text.occursAt_append_size_iff] at occurs
          obtain ⟨after, same⟩ := occurs
          rw [← same, Spelling.ofText?_text_append wellFormed after] at none
          cases none
        · exact later
  | case3 offset c rest spelling after found ih =>
      subst place
      obtain ⟨wellFormed, same⟩ := Spelling.ofText?_eq_some_iff.mp found
      have occurs : Text.OccursAt spelling.text (before ++ c :: rest) (Text.size before) := by
        rw [same, Text.occursAt_append_size_iff]
        exact List.prefix_append _ _
      have step := ih (before ++ spelling.text) (by simp)
      rw [List.append_assoc, ← same] at step
      rw [List.mem_cons, step]
      constructor
      · intro h
        rcases h with rfl | ⟨wellFormed', passed, occurs'⟩
        · exact ⟨wellFormed, Nat.le_refl _, occurs⟩
        · exact ⟨wellFormed', by omega, occurs'⟩
      · intro h
        obtain ⟨wellFormed', reached, occurs'⟩ := h
        -- A reference from here on is the one just read or starts after it.
        rcases Nat.eq_or_lt_of_le reached with here | later
        · left
          rw [← here] at occurs'
          obtain ⟨start, spelling'⟩ := reference
          dsimp only at here occurs' wellFormed'
          rw [wellFormed'.eq_of_occursAt wellFormed occurs' occurs, here]
        · exact .inr ⟨wellFormed', wellFormed.stop_le_of_start_lt occurs occurs' later, occurs'⟩

theorem mem_inText_iff :
    reference ∈ inText text ↔
      reference.spelling.WellFormed ∧
        Text.OccursAt reference.spelling.text text reference.start := by
  rw [inText, mem_inTextFrom_iff [] text Text.size_nil, List.nil_append]
  simp

theorem isBoundary_of_mem (member : reference ∈ inText text) :
    Text.IsBoundary text reference.start ∧ Text.IsBoundary text reference.stop := by
  obtain ⟨_, occurs⟩ := mem_inText_iff.mp member
  exact ⟨occurs.isBoundary, occurs.isBoundary_stop⟩

theorem eq_of_start_eq {other : Reference} (member : reference ∈ inText text)
    (member' : other ∈ inText text) (same : reference.start = other.start) : reference = other := by
  obtain ⟨wellFormed, here⟩ := mem_inText_iff.mp member
  obtain ⟨wellFormed', there⟩ := mem_inText_iff.mp member'
  obtain ⟨start, spelling⟩ := reference
  obtain ⟨start', spelling'⟩ := other
  obtain rfl : start = start' := same
  obtain rfl : spelling = spelling' := wellFormed.eq_of_occursAt wellFormed' here there
  rfl

theorem start_lt_stop (reference : Reference) : reference.start < reference.stop := by
  have nonempty := reference.spelling.size_text_pos
  rw [stop]
  omega

theorem inTextFrom_ordered (before rest : Text) {offset : Nat} (place : Text.size before = offset) :
    (inTextFrom offset rest).Pairwise fun earlier later => earlier.stop ≤ later.start := by
  fun_induction inTextFrom offset rest generalizing before with
  | case1 => exact .nil
  | case2 offset c rest none ih => exact ih (before ++ [c]) (by simp [place])
  | case3 offset c rest spelling after found ih =>
      have place' : Text.size (before ++ spelling.text) = offset + Text.size spelling.text := by
        rw [Text.size_append, place]
      apply List.pairwise_cons.mpr
      refine ⟨?_, ih _ place'⟩
      intro reference member
      exact ((mem_inTextFrom_iff _ after place').mp member).2.1

theorem inText_ordered (text : Text) :
    (inText text).Pairwise fun earlier later => earlier.stop ≤ later.start :=
  inTextFrom_ordered [] text Text.size_nil

theorem nodup_of_ordered {references : List Reference}
    (ordered : references.Pairwise fun earlier later => earlier.stop ≤ later.start) :
    references.Nodup := by
  apply ordered.imp
  intro earlier later apart equal
  subst equal
  have := earlier.start_lt_stop
  omega

theorem eq_of_ordered {references others : List Reference}
    (ordered : references.Pairwise fun earlier later => earlier.stop ≤ later.start)
    (ordered' : others.Pairwise fun earlier later => earlier.stop ≤ later.start)
    (same : ∀ reference, reference ∈ references ↔ reference ∈ others) : references = others := by
  have asymm : Std.Asymm fun earlier later : Reference => earlier.stop ≤ later.start := by
    constructor
    intro earlier later before after
    have := earlier.start_lt_stop
    have := later.start_lt_stop
    omega
  exact ordered.eq_of_mem_iff ordered' same

end TrackerLinks.Reference
