import Mathlib.Data.Nat.Find
import Mathlib.Order.Bounds.Basic
import TrackerLinks.Text.Basic

/-! Occurrences by byte offset. Two ways to cut one text compare by size, so that an occurrence
passes between a text, its tails and the parts that occur in it. -/

namespace TrackerLinks.Text

variable {part inner text before rest after : Text} {start offset : Nat}

theorem size_pos (h : text ≠ []) : 0 < size text := by
  cases text with
  | nil => exact absurd rfl h
  | cons c rest =>
      rw [size_cons]
      exact Nat.add_pos_left c.utf8Size_pos _

theorem eq_nil_of_size_eq_zero (h : size text = 0) : text = [] := by
  by_contra nonempty
  have := size_pos nonempty
  omega

theorem size_le_of_isPrefix (h : part <+: text) : size part ≤ size text := by
  obtain ⟨rest, rfl⟩ := h
  rw [size_append]
  exact Nat.le_add_right _ _

theorem length_le_of_size_le {part' : Text} (h : part <+: text) (h' : part' <+: text)
    (sizes : size part ≤ size part') : part.length ≤ part'.length := by
  rcases List.prefix_or_prefix_of_prefix h h' with shorter | longer
  · exact shorter.length_le
  · obtain ⟨rest, rfl⟩ := longer
    rw [size_append] at sizes
    obtain rfl : rest = [] := eq_nil_of_size_eq_zero (by omega)
    rw [List.append_nil]

theorem exists_append_of_size_le {front back front' back' : Text}
    (same : front ++ back = front' ++ back') (shorter : size front ≤ size front') :
    ∃ middle, front' = front ++ middle ∧ back = middle ++ back' := by
  rcases List.append_eq_append_iff.mp same with cut | ⟨middle, rfl, rfl⟩
  · exact cut
  · rw [size_append] at shorter
    obtain rfl : middle = [] := eq_nil_of_size_eq_zero (by omega)
    exact ⟨[], by simp, rfl⟩

theorem append_inj_of_size_eq {front back front' back' : Text}
    (same : front ++ back = front' ++ back') (sizes : size front = size front') :
    front = front' ∧ back = back' := by
  obtain ⟨middle, rfl, rfl⟩ := exists_append_of_size_le same (Nat.le_of_eq sizes)
  rw [size_append] at sizes
  obtain rfl : middle = [] := eq_nil_of_size_eq_zero (by omega)
  exact ⟨by simp, rfl⟩

theorem occursAt_zero_iff : OccursAt part text 0 ↔ part <+: text := by
  constructor
  · intro h
    obtain ⟨before, after, rfl, empty⟩ := h
    obtain rfl := eq_nil_of_size_eq_zero empty
    exact ⟨after, by simp⟩
  · intro h
    obtain ⟨after, rfl⟩ := h
    exact ⟨[], after, by simp, rfl⟩

theorem occursAt_append_left (part after : Text) : OccursAt part (part ++ after) 0 :=
  occursAt_zero_iff.mpr (List.prefix_append part after)

theorem occursAt_append_iff (passed : size before ≤ offset) :
    OccursAt part (before ++ rest) offset ↔ OccursAt part rest (offset - size before) := by
  constructor
  · intro h
    obtain ⟨front, after, same, rfl⟩ := h
    rw [List.append_assoc] at same
    obtain ⟨middle, rfl, rfl⟩ := exists_append_of_size_le same passed
    exact ⟨middle, after, by simp, by simp⟩
  · intro h
    obtain ⟨front, after, rfl, place⟩ := h
    refine ⟨before ++ front, after, by simp, ?_⟩
    rw [size_append]
    omega

theorem occursAt_append_add_iff :
    OccursAt part (before ++ rest) (size before + offset) ↔ OccursAt part rest offset := by
  rw [occursAt_append_iff (Nat.le_add_right _ _), Nat.add_sub_cancel_left]

theorem occursAt_append_size_iff :
    OccursAt part (before ++ rest) (size before) ↔ part <+: rest := by
  rw [occursAt_append_iff (Nat.le_refl _), Nat.sub_self, occursAt_zero_iff]

theorem occursAt_cons_iff {c : Char} :
    OccursAt part (c :: rest) offset ↔
      (offset = 0 ∧ part <+: c :: rest) ∨
        (c.utf8Size ≤ offset ∧ OccursAt part rest (offset - c.utf8Size)) := by
  have shift : size [c] ≤ offset →
      (OccursAt part ([c] ++ rest) offset ↔ OccursAt part rest (offset - size [c])) :=
    occursAt_append_iff
  simp only [size_cons, size_nil, Nat.add_zero, List.singleton_append] at shift
  by_cases far : c.utf8Size ≤ offset
  · have := c.utf8Size_pos
    rw [shift far]
    constructor
    · exact fun h => .inr ⟨far, h⟩
    · intro h
      rcases h with ⟨rfl, _⟩ | ⟨_, h⟩
      · omega
      · exact h
  · rw [← occursAt_zero_iff]
    constructor
    · intro h
      obtain ⟨front, after, same, rfl⟩ := h
      cases front with
      | nil => exact .inl ⟨rfl, [], after, same, rfl⟩
      | cons d front =>
          cases same
          simp only [size_cons] at far
          omega
    · intro h
      rcases h with ⟨rfl, h⟩ | ⟨near, _⟩
      · exact h
      · exact absurd near far

theorem start_eq_or_le_of_occursAt {c : Char} (reached : size before ≤ offset)
    (occurs : OccursAt part (before ++ c :: rest) offset) :
    offset = size before ∨ size before + c.utf8Size ≤ offset := by
  rw [occursAt_append_iff reached, occursAt_cons_iff] at occurs
  omega

theorem OccursAt.stop_le (h : OccursAt part text start) : start + size part ≤ size text := by
  obtain ⟨before, after, rfl, rfl⟩ := h
  simp only [size_append]
  omega

theorem OccursAt.subset (h : OccursAt part text start) : part ⊆ text := by
  obtain ⟨before, after, rfl, _⟩ := h
  intro c member
  simp [member]

theorem OccursAt.isBoundary (h : OccursAt part text start) : IsBoundary text start := by
  obtain ⟨before, after, rfl, rfl⟩ := h
  exact ⟨before, part ++ after, by simp, rfl⟩

theorem OccursAt.isBoundary_stop (h : OccursAt part text start) :
    IsBoundary text (start + size part) := by
  obtain ⟨before, after, rfl, rfl⟩ := h
  exact ⟨before ++ part, after, rfl, by simp⟩

theorem OccursAt.eq_of_size_eq {other : Text} (h : OccursAt part text start)
    (h' : OccursAt other text start) (sizes : size part = size other) : part = other := by
  obtain ⟨before, after, rfl, rfl⟩ := h
  rw [List.append_assoc, occursAt_append_size_iff] at h'
  obtain ⟨after', same⟩ := h'
  exact (append_inj_of_size_eq same.symm sizes).1

theorem OccursAt.of_isPrefix (h : OccursAt part text start) (front : inner <+: part) :
    OccursAt inner text start := by
  obtain ⟨before, after, rfl, rfl⟩ := h
  obtain ⟨rest, rfl⟩ := front
  exact ⟨before, rest ++ after, by simp, rfl⟩

/-- What occurs in a part is what occurs in the text within the part. -/
theorem OccursAt.inner_iff (h : OccursAt part text start) :
    OccursAt inner part offset ↔
      OccursAt inner text (start + offset) ∧ offset + size inner ≤ size part := by
  obtain ⟨before, after, rfl, rfl⟩ := h
  rw [List.append_assoc, occursAt_append_add_iff]
  constructor
  · intro found
    refine ⟨?_, found.stop_le⟩
    obtain ⟨front, back, rfl, rfl⟩ := found
    exact ⟨front, back ++ after, by simp, rfl⟩
  · intro h
    obtain ⟨⟨front, back, same, rfl⟩, fits⟩ := h
    rw [← size_append] at fits
    obtain ⟨middle, rfl, _⟩ := exists_append_of_size_le same.symm fits
    exact ⟨front, middle, rfl, rfl⟩

theorem size_utf8Encode (text : Text) : text.utf8Encode.size = size text := by
  induction text with
  | nil => rfl
  | cons c rest ih =>
      rw [List.utf8Encode_cons, ByteArray.size_append, ih, List.utf8Encode_singleton,
        List.size_toByteArray, String.length_utf8EncodeChar, size_cons]

theorem OccursAt.extract_utf8Encode (h : OccursAt part text start) :
    text.utf8Encode.extract start (start + size part) = part.utf8Encode := by
  obtain ⟨before, after, rfl, rfl⟩ := h
  rw [List.utf8Encode_append, List.utf8Encode_append, ByteArray.append_assoc]
  have cut := ByteArray.extract_append_size_add' (a := before.utf8Encode)
    (b := part.utf8Encode ++ after.utf8Encode) (i := 0) (j := size part)
    (size_utf8Encode before).symm
  rw [Nat.add_zero] at cut
  rw [cut]
  exact ByteArray.extract_append_eq_left (size_utf8Encode part).symm

theorem isLeast_of_index?_eq_some {pattern : Text} {n : Nat} (h : index? pattern text = some n) :
    IsLeast { found | OccursAt pattern text found } (size (text.take n)) := by
  obtain ⟨_, here, first⟩ := (index?_eq_some_iff pattern text n).mp h
  constructor
  · have there : OccursAt pattern (text.take n ++ text.drop n) (size (text.take n)) :=
      occursAt_append_size_iff.mpr here
    rwa [List.take_append_drop] at there
  · intro found h
    obtain ⟨before, after, rfl, rfl⟩ := h
    have reached : n ≤ before.length := by
      by_contra far
      apply first before.length (Nat.lt_of_not_le far)
      simp
    rw [List.append_assoc, List.take_append_of_le_length reached]
    exact size_le_of_isPrefix (List.take_prefix n before)

theorem not_occursAt_of_index?_eq_none {pattern : Text} (h : index? pattern text = none) :
    ¬ OccursAt pattern text offset := by
  intro h
  obtain ⟨before, after, rfl, rfl⟩ := h
  have found : ∃ k, pattern <+: (before ++ pattern ++ after).drop k :=
    ⟨before.length, by simp⟩
  classical
  have bound : Nat.find found ≤ before.length := Nat.find_min' found (by simp)
  have first := (index?_eq_some_iff pattern (before ++ pattern ++ after) (Nat.find found)).mpr
    ⟨by simp only [List.length_append]; omega, Nat.find_spec found, fun m => Nat.find_min found⟩
  rw [h] at first
  cases first

theorem index?_of_append {pattern front back : Text} {n : Nat}
    (h : index? pattern (front ++ back) = some n) (fits : n + pattern.length ≤ front.length) :
    index? pattern front = some n := by
  obtain ⟨_, here, first⟩ := (index?_eq_some_iff pattern _ n).mp h
  refine (index?_eq_some_iff pattern front n).mpr ⟨by omega, ?_, ?_⟩
  · rw [List.drop_append_of_le_length (by omega)] at here
    apply List.prefix_of_prefix_length_le here (List.prefix_append _ back)
    rw [List.length_drop]
    omega
  · intro m before earlier
    apply first m before
    rw [List.drop_append_of_le_length (by omega)]
    exact earlier.trans (List.prefix_append _ back)

theorem index?_append {pattern front : Text} {n : Nat} (found : index? pattern front = some n)
    (back : Text) : index? pattern (front ++ back) = some n := by
  obtain ⟨bound, here, first⟩ := (index?_eq_some_iff pattern front n).mp found
  have fits := here.length_le
  rw [List.length_drop] at fits
  refine (index?_eq_some_iff pattern _ n).mpr ⟨?_, ?_, ?_⟩
  · rw [List.length_append]
    omega
  · rw [List.drop_append_of_le_length bound]
    exact here.trans (List.prefix_append _ back)
  · intro m before earlier
    apply first m before
    rw [List.drop_append_of_le_length (by omega)] at earlier
    apply List.prefix_of_prefix_length_le earlier (List.prefix_append _ back)
    rw [List.length_drop]
    omega

end TrackerLinks.Text
