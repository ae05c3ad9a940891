import TrackerLinks.Proofs.Text.Occurrence
import TrackerLinks.Proofs.Text.Trimming
import TrackerLinks.Reference

/-! A reference is read at the head of a text exactly when a well-formed spelling stands there, and
two of them in one text are the same or apart. -/

namespace TrackerLinks

namespace Spelling

variable {spelling other : Spelling} {text rest : Text}

theorem size_text_pos (spelling : Spelling) : 0 < Text.size spelling.text :=
  Text.size_pos (List.length_pos_iff.mp spelling.text_length_pos)

theorem exists_text_eq_append_close (spelling : Spelling) :
    ∃ front, spelling.text = front ++ [')'] :=
  ⟨'(' :: (spelling.beforeHash ++ '#' :: (spelling.afterHash ++
    (spelling.number ++ spelling.afterNumber))), by simp [text]⟩

theorem isBlank_eq_false_of_isDigit {c : Char} (h : isDigit c) : Text.isBlank c = false := by
  simp only [isDigit, Bool.and_eq_true, decide_eq_true_eq, Char.le_def, UInt32.le_iff_toNat_le] at h
  obtain ⟨low, high⟩ := h
  have low : 48 ≤ c.toNat := low
  have high : c.toNat ≤ 57 := high
  simp only [Text.isBlank, Bool.or_eq_false_iff, Bool.and_eq_false_iff, decide_eq_false_iff_not,
    beq_eq_false_iff_ne]
  omega

theorem isDigit_eq_false_of_isBlank {c : Char} (h : Text.isBlank c) : isDigit c = false := by
  by_contra digit
  rw [isBlank_eq_false_of_isDigit (Bool.not_eq_false _ ▸ digit)] at h
  cases h

theorem ofText?_text_append (h : spelling.WellFormed) (rest : Text) :
    ofText? (spelling.text ++ rest) = some (spelling, rest) := by
  obtain ⟨beforeHash, afterHash, number, afterNumber⟩ := spelling
  obtain ⟨blankBefore, blankAfter, digits, nonempty, blankEnd⟩ := h
  dsimp only at *
  obtain ⟨first, more, rfl⟩ := List.exists_cons_of_ne_nil nonempty
  have hashStops :
      ∀ c ∈ ('#' :: (afterHash ++ (first :: more ++ (afterNumber ++ ')' :: rest)))).head?,
        Text.isBlank c = false := Text.stop_of_head rfl
  have firstStops : ∀ c ∈ (first :: more ++ (afterNumber ++ ')' :: rest)).head?,
      Text.isBlank c = false :=
    Text.stop_of_head (isBlank_eq_false_of_isDigit (digits first List.mem_cons_self))
  have endStops : ∀ c ∈ (afterNumber ++ ')' :: rest).head?, isDigit c = false := by
    cases afterNumber with
    | nil => exact Text.stop_of_head rfl
    | cons blank _ =>
        exact Text.stop_of_head (isDigit_eq_false_of_isBlank (blankEnd blank List.mem_cons_self))
  have closeStops : ∀ c ∈ (')' :: rest).head?, Text.isBlank c = false := Text.stop_of_head rfl
  -- Each part of the spelling is cut off whole, because the next part starts with a stop.
  obtain ⟨takeBefore, dropBefore⟩ := Text.cut_of_stop blankBefore hashStops
  obtain ⟨takeAfter, dropAfter⟩ := Text.cut_of_stop blankAfter firstStops
  obtain ⟨takeNumber, dropNumber⟩ := Text.cut_of_stop digits endStops
  obtain ⟨takeEnd, dropEnd⟩ := Text.cut_of_stop blankEnd closeStops
  simp only [text, List.cons_append, List.append_assoc, List.nil_append] at *
  simp only [ofText?, takeBefore, dropBefore, takeAfter, dropAfter, takeNumber, dropNumber, takeEnd,
    dropEnd]

theorem wellFormed_of_ofText? (h : ofText? text = some (spelling, rest)) : spelling.WellFormed := by
  unfold ofText? at h
  split at h
  · split at h
    · dsimp only at h
      split at h
      · rename_i first more after digits close
        cases h
        refine ⟨?_, ?_, ?_, ?_, ?_⟩
        · exact fun c => List.mem_takeWhile_imp
        · exact fun c => List.mem_takeWhile_imp
        · rw [← digits]
          exact fun c => List.mem_takeWhile_imp
        · exact List.cons_ne_nil _ _
        · exact fun c => List.mem_takeWhile_imp
      · cases h
    · cases h
  · cases h

theorem ofText?_eq_some_iff :
    ofText? text = some (spelling, rest) ↔ spelling.WellFormed ∧ text = spelling.text ++ rest := by
  constructor
  · intro h
    exact ⟨wellFormed_of_ofText? h, eq_append_of_ofText? h⟩
  · intro h
    obtain ⟨wellFormed, rfl⟩ := h
    exact ofText?_text_append wellFormed rest

/-- The one opening parenthesis of a reference is its first character. -/
theorem WellFormed.eq_zero_of_occursAt_paren (h : spelling.WellFormed) {offset : Nat}
    (occurs : Text.OccursAt ['('] spelling.text offset) : offset = 0 := by
  have absent : '(' ∉ spelling.text.tail := by
    intro member
    simp only [text, List.tail_cons, List.mem_append, List.mem_cons, List.not_mem_nil] at member
    have notDigit : ¬ isDigit '(' := by decide
    have notBlank : ¬ Text.isBlank '(' := by decide
    rcases member with blank | equal | blank | digit | blank | equal | no
    · exact notBlank (h.beforeHash _ blank)
    · cases equal
    · exact notBlank (h.afterHash _ blank)
    · exact notDigit (h.number _ digit)
    · exact notBlank (h.afterNumber _ blank)
    · cases equal
    · exact no
  obtain ⟨before, after, same, rfl⟩ := occurs
  cases before with
  | nil => rfl
  | cons c before =>
      rw [same] at absent
      simp at absent

variable {start start' : Nat}

theorem occursAt_paren (occurs : Text.OccursAt spelling.text text start) :
    Text.OccursAt ['('] text start := by
  apply occurs.of_isPrefix
  exact ⟨_, rfl⟩

theorem WellFormed.eq_of_occursAt (h : spelling.WellFormed) (h' : other.WellFormed)
    (occurs : Text.OccursAt spelling.text text start)
    (occurs' : Text.OccursAt other.text text start) : spelling = other := by
  obtain ⟨before, after, rfl, rfl⟩ := occurs
  rw [List.append_assoc, Text.occursAt_append_size_iff] at occurs'
  obtain ⟨after', same⟩ := occurs'
  have read := ofText?_text_append h after
  rw [← same, ofText?_text_append h' after'] at read
  cases read
  rfl

/-- No reference starts inside another. -/
theorem WellFormed.stop_le_of_start_lt (h : spelling.WellFormed)
    (occurs : Text.OccursAt spelling.text text start)
    (occurs' : Text.OccursAt other.text text start') (later : start < start') :
    start + Text.size spelling.text ≤ start' := by
  by_contra inside
  have paren := occursAt_paren occurs'
  have place : start + (start' - start) = start' := by omega
  have within : Text.OccursAt ['('] spelling.text (start' - start) := by
    rw [occurs.inner_iff, place]
    refine ⟨paren, ?_⟩
    change start' - start + 1 ≤ Text.size spelling.text
    omega
  have := h.eq_zero_of_occursAt_paren within
  omega

end Spelling

end TrackerLinks
