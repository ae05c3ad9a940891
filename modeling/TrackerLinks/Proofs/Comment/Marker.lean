import Mathlib.Data.List.Find
import Mathlib.Data.List.Nodup
import TrackerLinks.Comment.Span
import TrackerLinks.Proofs.Text.Occurrence

/-! The marker that governs a comment and the place where the comment ends, told by what occurs in
the whole text. -/

namespace TrackerLinks.Comment

variable {delimiters : Delimiters} {marker other : Marker} {text before rest : Text}
  {start stop : Nat}

namespace Marker

/-- Of the openers at `start`, that of `marker` is the longest. -/
structure Governs (delimiters : Delimiters) (text : Text) (start : Nat) (marker : Marker) :
    Prop where
  mem : marker ∈ delimiters.markers
  opens : Text.OccursAt marker.opener text start
  longest : ∀ other ∈ delimiters.markers, Text.OccursAt other.opener text start →
    Text.size other.opener ≤ Text.size marker.opener

/-- The comment that the marker opens at `start` ends at `stop`: before the first line break or at
the end of the text, and for a block after its first closer or, without one, at the end of the
text. -/
def EndsAt (text : Text) (start stop : Nat) : Marker → Prop
  | .line opener =>
      IsLeast { offset | start + Text.size opener ≤ offset ∧
        (offset = Text.size text ∨ Text.OccursAt ['\r'] text offset ∨
          Text.OccursAt ['\n'] text offset) } stop
  | .block opener closer =>
      (∃ found,
        IsLeast { offset | start + Text.size opener ≤ offset ∧ Text.OccursAt closer text offset }
          found ∧ stop = found + Text.size closer) ∨
      ((∀ offset, start + Text.size opener ≤ offset → ¬ Text.OccursAt closer text offset) ∧
        stop = Text.size text)

theorem EndsAt.unique {stop' : Nat} (h : marker.EndsAt text start stop)
    (h' : marker.EndsAt text start stop') : stop = stop' := by
  cases marker with
  | line opener => exact IsLeast.unique h h'
  | block opener closer =>
      rcases h with ⟨found, least, rfl⟩ | ⟨missing, rfl⟩
      · rcases h' with ⟨found', least', rfl⟩ | ⟨missing', _⟩
        · rw [least.unique least']
        · exact absurd least.1.2 (missing' found least.1.1)
      · rcases h' with ⟨found', least', _⟩ | ⟨_, rfl⟩
        · exact absurd least'.1.2 (missing found' least'.1.1)
        · rfl

theorem EndsAt.opener_le (h : marker.EndsAt text start stop)
    (opens : Text.OccursAt marker.opener text start) :
    start + Text.size marker.opener ≤ stop := by
  cases marker with
  | line opener => exact h.1.1
  | block opener closer =>
      rcases h with ⟨found, least, rfl⟩ | ⟨_, rfl⟩
      · exact Nat.le_trans least.1.1 (Nat.le_add_right _ _)
      · exact opens.stop_le

theorem Governs.start_lt (h : marker.Governs delimiters text start)
    (ends : marker.EndsAt text start stop) : start < stop := by
  have opened := Text.size_pos (delimiters.opener_ne_nil marker h.mem)
  have := ends.opener_le h.opens
  omega

theorem insert_ordered {markers : List Marker}
    (ordered : markers.Pairwise fun first later => Text.size later.opener ≤ Text.size first.opener) :
    (insert marker markers).Pairwise fun first later =>
      Text.size later.opener ≤ Text.size first.opener := by
  induction markers with
  | nil => exact List.pairwise_singleton _ _
  | cons first more ih =>
      obtain ⟨bound, ordered'⟩ := List.pairwise_cons.mp ordered
      rw [insert]
      split
      · rename_i shorter
        refine List.pairwise_cons.mpr ⟨?_, ordered⟩
        exact List.forall_mem_cons.mpr
          ⟨shorter, fun other member => Nat.le_trans (bound other member) shorter⟩
      · rename_i longer
        refine List.pairwise_cons.mpr ⟨?_, ih ordered'⟩
        intro other member
        rcases mem_insert_iff.mp member with rfl | member
        · omega
        · exact bound other member

theorem isLineBreak_eq_false_iff {c : Char} : isLineBreak c = false ↔ c ≠ '\r' ∧ c ≠ '\n' := by
  simp [isLineBreak]

/-- The first line break, or the end, stands after the longest front without line breaks. -/
theorem isLeast_lineEnd (tail : Text) :
    IsLeast { offset | offset = Text.size tail ∨ Text.OccursAt ['\r'] tail offset ∨
        Text.OccursAt ['\n'] tail offset }
      (Text.size (tail.takeWhile (!isLineBreak ·))) := by
  induction tail with
  | nil => exact ⟨.inl rfl, fun _ _ => Nat.zero_le _⟩
  | cons c tail ih =>
      cases broken : isLineBreak c with
      | true =>
          have zero : (c :: tail).takeWhile (!isLineBreak ·) = [] := by simp [broken]
          rw [zero]
          refine ⟨.inr ?_, fun _ _ => Nat.zero_le _⟩
          simp only [isLineBreak, Bool.or_eq_true, decide_eq_true_eq] at broken
          rw [Text.size_nil, Text.occursAt_zero_iff, Text.occursAt_zero_iff]
          rcases broken with rfl | rfl
          · exact .inl ⟨tail, rfl⟩
          · exact .inr ⟨tail, rfl⟩
      | false =>
          have kept : (c :: tail).takeWhile (!isLineBreak ·) =
              c :: tail.takeWhile (!isLineBreak ·) := by simp [broken]
          obtain ⟨notReturn, notFeed⟩ := isLineBreak_eq_false_iff.mp broken
          have later (b : Char) (different : c ≠ b) (offset : Nat) :
              Text.OccursAt [b] (c :: tail) offset ↔
                c.utf8Size ≤ offset ∧ Text.OccursAt [b] tail (offset - c.utf8Size) := by
            rw [Text.occursAt_cons_iff]
            simp [List.cons_prefix_cons, different.symm]
          simp only [later _ notReturn, later _ notFeed, kept, Text.size_cons]
          constructor
          · rcases ih.1 with atEnd | atReturn | atFeed
            · exact .inl (congrArg _ atEnd)
            · exact .inr (.inl ⟨Nat.le_add_right _ _, by simpa using atReturn⟩)
            · exact .inr (.inr ⟨Nat.le_add_right _ _, by simpa using atFeed⟩)
          · intro offset h
            rcases h with atEnd | ⟨far, atReturn⟩ | ⟨far, atFeed⟩
            · have := ih.2 (.inl rfl)
              omega
            · have := ih.2 (.inr (.inl atReturn))
              omega
            · have := ih.2 (.inr (.inr atFeed))
              omega

theorem take_extent_line (opener tail : Text) :
    (opener ++ tail).take ((line opener).extent (opener ++ tail)) =
      opener ++ tail.takeWhile (!isLineBreak ·) := by
  simp only [extent, List.drop_left, List.take_length_add_append]
  rw [← List.prefix_iff_eq_take.mp (List.takeWhile_prefix _)]

theorem take_extent_block_of_closed {opener closer tail : Text} {inside : Nat}
    (h : Text.index? closer tail = some inside) :
    (opener ++ tail).take ((block opener closer).extent (opener ++ tail)) =
      opener ++ (tail.take inside ++ closer) := by
  obtain ⟨bound, ⟨after, same⟩, _⟩ := (Text.index?_eq_some_iff closer tail inside).mp h
  have cut : (tail.take inside).length = inside := List.length_take_of_le bound
  conv => lhs; arg 2; rw [← List.take_append_drop inside tail, ← same]
  simp only [extent, List.drop_left, h, Nat.add_assoc, List.take_length_add_append]
  conv => lhs; arg 2; arg 1; rw [← cut]
  rw [List.take_length_add_append, List.take_left]

theorem take_extent_block_of_open {opener closer tail : Text}
    (h : Text.index? closer tail = none) :
    (opener ++ tail).take ((block opener closer).extent (opener ++ tail)) = opener ++ tail := by
  simp only [extent, List.drop_left, h]
  exact List.take_of_length_le (Nat.le_max_right _ _)

private theorem isLeast_shift {p q : Nat → Prop} {low least : Nat}
    (same : ∀ n, p (low + n) ↔ q n) (h : IsLeast { n | q n } least) :
    IsLeast { n | low ≤ n ∧ p n } (low + least) := by
  constructor
  · exact ⟨Nat.le_add_right _ _, (same least).mpr h.1⟩
  · intro n h
    obtain ⟨reached, holds⟩ := h
    obtain ⟨n, rfl⟩ := Nat.exists_eq_add_of_le reached
    have := h.2 ((same n).mp holds)
    omega

theorem endsAt_extent (opens : marker.opener <+: rest) :
    marker.EndsAt (before ++ rest) (Text.size before)
      (Text.size before + Text.size (rest.take (marker.extent rest))) := by
  obtain ⟨tail, rfl⟩ := opens
  have inTail (part : Text) (offset : Nat) :
      Text.OccursAt part (before ++ (marker.opener ++ tail))
        (Text.size before + Text.size marker.opener + offset) ↔
      Text.OccursAt part tail offset := by
    rw [Nat.add_assoc, Text.occursAt_append_add_iff, Text.occursAt_append_add_iff]
  cases marker with
  | line opener =>
      simp only [Marker.opener] at inTail ⊢
      rw [take_extent_line, Text.size_append, ← Nat.add_assoc]
      apply isLeast_shift _ (isLeast_lineEnd tail)
      intro offset
      rw [inTail, inTail, Text.size_append, Text.size_append, ← Nat.add_assoc,
        Nat.add_left_cancel_iff]
  | block opener closer =>
      simp only [Marker.opener] at inTail ⊢
      cases found : Text.index? closer tail with
      | some inside =>
          left
          refine ⟨_, isLeast_shift (inTail closer) (Text.isLeast_of_index?_eq_some found), ?_⟩
          rw [take_extent_block_of_closed found, Text.size_append, Text.size_append]
          omega
      | none =>
          right
          constructor
          · intro offset reached occurs
            obtain ⟨offset, rfl⟩ := Nat.exists_eq_add_of_le reached
            exact Text.not_occursAt_of_index?_eq_none found ((inTail closer offset).mp occurs)
          · rw [take_extent_block_of_open found, ← Text.size_append]

end Marker

/-- No two markers share an opener. -/
def Delimiters.Distinct (delimiters : Delimiters) : Prop :=
  (delimiters.markers.map Marker.opener).Nodup

theorem Profile.delimiters_distinct (profile : Profile) : profile.delimiters.Distinct := by
  unfold Delimiters.Distinct
  cases profile <;> decide

theorem Marker.Governs.unique (distinct : delimiters.Distinct)
    (h : marker.Governs delimiters text start) (h' : other.Governs delimiters text start) :
    marker = other := by
  have sizes := Nat.le_antisymm (h'.longest marker h.mem h.opens) (h.longest other h'.mem h'.opens)
  exact List.inj_on_of_nodup_map distinct h.mem h'.mem (h.opens.eq_of_size_eq h'.opens sizes)

namespace Delimiters

theorem alternatives_ordered (delimiters : Delimiters) :
    delimiters.alternatives.Pairwise fun first later =>
      Text.size later.opener ≤ Text.size first.opener := by
  rw [alternatives]
  generalize delimiters.markers.filter (·.isBlock) ++ _ = markers
  induction markers with
  | nil => exact List.Pairwise.nil
  | cons first more ih => exact Marker.insert_ordered ih

theorem opener_prefix_of_markerAt? (h : delimiters.markerAt? rest = some marker) :
    marker.opener <+: rest := by
  have fits := List.find?_some h
  exact List.isPrefixOf_iff_prefix.mp fits

theorem markerAt?_eq_none_iff :
    delimiters.markerAt? rest = none ↔
      ∀ marker ∈ delimiters.markers, ¬ marker.opener <+: rest := by
  simp only [markerAt?, List.find?_eq_none, mem_alternatives_iff, List.isPrefixOf_iff_prefix]

/-- The first opener that fits is the longest of those that fit. -/
theorem size_le_of_markerAt? (h : delimiters.markerAt? rest = some marker)
    (member : other ∈ delimiters.markers) (opens : other.opener <+: rest) :
    Text.size other.opener ≤ Text.size marker.opener := by
  obtain ⟨_, tried, untried, same, missed⟩ := List.find?_eq_some_iff_append.mp h
  have ordered := alternatives_ordered delimiters
  rw [same, List.pairwise_append, List.pairwise_cons] at ordered
  rw [← mem_alternatives_iff, same, List.mem_append, List.mem_cons] at member
  rcases member with tried | rfl | later
  · have missed := missed other tried
    rw [List.isPrefixOf_iff_prefix.mpr opens] at missed
    cases missed
  · exact Nat.le_refl _
  · exact ordered.2.1.1 other later

theorem markerAt?_congr {text text' : Text}
    (same : ∀ marker ∈ delimiters.markers, (marker.opener <+: text ↔ marker.opener <+: text')) :
    delimiters.markerAt? text = delimiters.markerAt? text' := by
  apply List.find?_congr
  intro marker member
  rw [Bool.eq_iff_iff, List.isPrefixOf_iff_prefix, List.isPrefixOf_iff_prefix]
  exact same marker (mem_alternatives_iff.mp member)

theorem governs_of_markerAt? (h : delimiters.markerAt? rest = some marker) :
    marker.Governs delimiters (before ++ rest) (Text.size before) := by
  refine ⟨mem_of_markerAt? h,
    Text.occursAt_append_size_iff.mpr (opener_prefix_of_markerAt? h), ?_⟩
  intro other member opens
  exact size_le_of_markerAt? h member (Text.occursAt_append_size_iff.mp opens)

theorem not_occursAt_of_markerAt?_eq_none (h : delimiters.markerAt? rest = none) :
    ∀ marker ∈ delimiters.markers,
      ¬ Text.OccursAt marker.opener (before ++ rest) (Text.size before) := by
  intro marker member opens
  rw [Text.occursAt_append_size_iff] at opens
  exact markerAt?_eq_none_iff.mp h marker member opens

end Delimiters

end TrackerLinks.Comment
