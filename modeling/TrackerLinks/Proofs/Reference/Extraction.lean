import Mathlib.Data.List.Sort
import TrackerLinks.Proofs.Reference.Occurrence

namespace TrackerLinks.Reference

variable {text : Text}

/-- What is reported of a reference: where it starts, where it stops and which issue it names. -/
def outline (reference : Reference) : Nat × Nat × Text :=
  (reference.start, reference.stop, reference.number)

/-- From `start` to `stop`, `text` is a well-formed reference to the issue `number`. -/
def Stands (text : Text) : Nat × Nat × Text → Prop
  | (start, stop, number) =>
      ∃ spelling : Spelling, spelling.WellFormed ∧ Text.OccursAt spelling.text text start ∧
        start + Text.size spelling.text = stop ∧ spelling.number = number

/-- `found` has all references of `text`, each once, from left to right. -/
structure IsExtraction (text : Text) (found : List (Nat × Nat × Text)) : Prop where
  ordered : found.Pairwise fun earlier later => earlier.1 < later.1
  mem_iff : ∀ entry, entry ∈ found ↔ Stands text entry

theorem mem_outlines_iff {entry : Nat × Nat × Text} :
    entry ∈ (inText text).map outline ↔ Stands text entry := by
  obtain ⟨start, stop, number⟩ := entry
  rw [List.mem_map]
  constructor
  · intro h
    obtain ⟨reference, member, same⟩ := h
    cases same
    obtain ⟨wellFormed, occurs⟩ := mem_inText_iff.mp member
    exact ⟨reference.spelling, wellFormed, occurs, rfl, rfl⟩
  · intro h
    obtain ⟨spelling, wellFormed, occurs, rfl, rfl⟩ := h
    exact ⟨⟨start, spelling⟩, mem_inText_iff.mpr ⟨wellFormed, occurs⟩, rfl⟩

theorem outlines_ordered (text : Text) :
    ((inText text).map outline).Pairwise fun earlier later => earlier.2.1 ≤ later.1 :=
  List.pairwise_map.mpr (inText_ordered text)

theorem isExtraction_outlines (text : Text) : IsExtraction text ((inText text).map outline) where
  ordered := by
    rw [List.pairwise_map]
    apply (inText_ordered text).imp
    intro earlier later apart
    exact Nat.lt_of_lt_of_le earlier.start_lt_stop apart
  mem_iff _ := mem_outlines_iff

theorem IsExtraction.unique {found found' : List (Nat × Nat × Text)}
    (extraction : IsExtraction text found) (extraction' : IsExtraction text found') :
    found = found' := by
  have asymm : Std.Asymm fun earlier later : Nat × Nat × Text => earlier.1 < later.1 :=
    ⟨fun _ _ => Nat.lt_asymm⟩
  apply extraction.ordered.eq_of_mem_iff extraction'.ordered
  intro entry
  rw [extraction.mem_iff, extraction'.mem_iff]

/-- Reading a text reports exactly its references, and no two of them overlap. -/
theorem outlines_eq_iff_isExtraction (text : Text) (found : List (Nat × Nat × Text)) :
    ((inText text).map outline = found ↔ IsExtraction text found) ∧
      ((inText text).map outline).Pairwise fun earlier later => earlier.2.1 ≤ later.1 := by
  refine ⟨?_, outlines_ordered text⟩
  constructor
  · rintro rfl
    exact isExtraction_outlines text
  · intro extraction
    exact (isExtraction_outlines text).unique extraction

/-- A near miss hides no reference, and only ASCII digits make a number. -/
example : (inText "((#5) (#(# 07\n) (#٤٢) (#6".toList).map outline =
    [(1, 5, "5".toList), (8, 15, "07".toList)] := by
  decide +kernel

end TrackerLinks.Reference
