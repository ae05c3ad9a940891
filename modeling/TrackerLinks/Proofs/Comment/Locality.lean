import TrackerLinks.Proofs.Comment.Returns
import TrackerLinks.Proofs.Comment.Splitting

/-! A comment that ends before an offset is told by the text up to there. A cut through an opener or a
comment shows only in comments that reach the cut. -/

namespace TrackerLinks.Comment

variable {delimiters : Delimiters} {marker : Marker} {text front back : Text} {span : Span}
  {offset : Nat}

theorem Marker.extent_append_of_lt (inside : marker.extent front < front.length) (back : Text) :
    marker.extent (front ++ back) = marker.extent front := by
  have opened := (marker.opener_length_le_extent front).trans (Nat.le_of_lt inside)
  cases marker with
  | line opener =>
      simp only [Marker.extent, Marker.opener] at inside opened ⊢
      rw [List.drop_append_of_le_length opened, List.takeWhile_append, if_neg]
      rw [List.length_drop]
      omega
  | block opener closer =>
      simp only [Marker.extent, Marker.opener] at inside opened ⊢
      cases found : Text.index? closer (front.drop opener.length) with
      | some skipped =>
          rw [List.drop_append_of_le_length opened, Text.index?_append found]
      | none =>
          simp only [found] at inside
          omega

theorem le_stop_of_mem_delimitedFrom (member : span ∈ delimitedFrom delimiters offset text) :
    offset ≤ span.stop := by
  fun_induction delimitedFrom delimiters offset text with
  | case1 => cases member
  | case2 offset c rest none ih => exact (Nat.le_add_right _ _).trans (ih member)
  | case3 offset c rest marker found comment ih =>
      rcases List.mem_cons.mp member with rfl | later
      · exact Nat.le_add_right _ _
      · exact (Nat.le_add_right _ _).trans (ih later)

/-- No opener is longer than a block with nothing in it. -/
def Delimiters.IsBrief (delimiters : Delimiters) : Prop :=
  ∀ marker ∈ delimiters.markers, ∀ block ∈ delimiters.blocks,
    marker.opener.length ≤ block.1.length + block.2.length

theorem Profile.delimiters_isBrief (profile : Profile) : profile.delimiters.IsBrief := by
  unfold Delimiters.IsBrief
  cases profile <;> decide

/-- In a text without line breaks or room for a block, a comment goes on to the end. -/
theorem Marker.length_le_extent (member : marker ∈ delimiters.markers)
    (opens : marker.opener <+: text) (unbroken : text.IsUnbroken)
    (short : ∀ block ∈ delimiters.blocks, text.length < block.1.length + block.2.length) :
    text.length ≤ marker.extent text := by
  have bound := extent_le_length opens
  cases marker with
  | line opener =>
      have whole : (text.drop opener.length).takeWhile (!isLineBreak ·) =
          text.drop opener.length := by
        apply List.takeWhile_eq_self_iff.mpr
        intro c inside
        have inside' := List.mem_of_mem_drop inside
        rw [Bool.not_eq_true', isLineBreak_eq_false_iff]
        exact ⟨ne_of_mem_of_not_mem inside' unbroken.1, ne_of_mem_of_not_mem inside' unbroken.2⟩
      rw [extent, whole, List.length_drop]
      omega
  | block opener closer =>
      have room := short (opener, closer) (List.mem_filterMap.mpr ⟨_, member, rfl⟩)
      rw [extent] at bound ⊢
      dsimp only at room
      split at bound
      · omega
      · exact Nat.le_max_right _ _

theorem stop_eq_of_mem_delimitedFrom (unbroken : text.IsUnbroken)
    (short : ∀ block ∈ delimiters.blocks, text.length < block.1.length + block.2.length)
    (member : span ∈ delimitedFrom delimiters offset text) :
    span.stop = offset + Text.size text := by
  fun_induction delimitedFrom delimiters offset text with
  | case1 => cases member
  | case2 offset c rest none ih =>
      obtain ⟨_, _, unbroken'⟩ := Text.isUnbroken_cons_iff.mp unbroken
      have short' : ∀ block ∈ delimiters.blocks,
          rest.length < block.1.length + block.2.length := by
        intro block inside
        exact (Nat.lt_succ_self _).trans (short block inside)
      rw [ih unbroken' short' member, Text.size_cons, Nat.add_assoc]
  | case3 offset c rest marker found comment ih =>
      have reaches := Marker.length_le_extent
        (Delimiters.mem_of_markerAt? found)
        (Delimiters.opener_prefix_of_markerAt? found) unbroken short
      have alone := delimitedFrom_of_length_le_extent offset found reaches
      rw [delimitedFrom_of_markerAt?_eq_some _ found] at alone
      rw [alone] at member
      rw [List.mem_singleton.mp member]
      rfl

/-- Where the comment at the head of a text reaches past the front, every comment of the front goes
on to its end. -/
theorem le_stop_of_lt_extent (brief : delimiters.IsBrief) (unbroken : delimiters.IsUnbroken)
    (found : delimiters.markerAt? (front ++ back) = some marker)
    (past : front.length < marker.extent (front ++ back))
    (member : span ∈ delimitedFrom delimiters offset front) :
    offset + Text.size front ≤ span.stop := by
  have opens := Delimiters.opener_prefix_of_markerAt? found
  by_cases opened : marker.opener.length ≤ front.length
  · have reaches : front.length ≤ marker.extent front := by
      by_contra inside
      rw [Marker.extent_append_of_lt (Nat.lt_of_not_le inside)] at past
      omega
    rw [delimitedFrom_of_length_le_extent offset (Delimiters.markerAt?_of_append found opened)
      reaches] at member
    rw [List.mem_singleton.mp member]
    exact Nat.le_refl _
  · -- What is left of the opener may open a comment of its own, but has no room to close it.
    have isMarker := Delimiters.mem_of_markerAt? found
    have cut : front <+: marker.opener :=
      List.prefix_of_prefix_length_le (List.prefix_append front back) opens (by omega)
    have whole := (unbroken marker isMarker).opener
    have short : ∀ block ∈ delimiters.blocks,
        front.length < block.1.length + block.2.length := by
      intro block inside
      have := brief marker isMarker block inside
      omega
    exact Nat.le_of_eq (stop_eq_of_mem_delimitedFrom
      ⟨fun inside => whole.1 (cut.subset inside), fun inside => whole.2 (cut.subset inside)⟩
      short member).symm

theorem filter_stop_lt_eq_nil {comments : List Span} {limit : Nat}
    (reach : ∀ span ∈ comments, limit ≤ span.stop) :
    comments.filter (·.stop < limit) = [] := by
  apply List.filter_eq_nil_iff.mpr
  intro span member
  simpa using reach span member

theorem filter_delimitedFrom_append (brief : delimiters.IsBrief)
    (unbroken : delimiters.IsUnbroken) (offset : Nat) (front back : Text) :
    (delimitedFrom delimiters offset (front ++ back)).filter
        (·.stop < offset + Text.size front) =
      (delimitedFrom delimiters offset front).filter (·.stop < offset + Text.size front) := by
  induction offset, front using front_induction delimiters back with
  | empty offset =>
      rw [delimitedFrom, List.filter_nil]
      exact filter_stop_lt_eq_nil fun _ member => le_stop_of_mem_delimitedFrom member
  | skip offset c front alone both ih =>
      rw [both, alone, Text.size_cons, ← Nat.add_assoc]
      exact ih
  | take offset comment front alone both ih =>
      rw [both, alone, Text.size_append, ← Nat.add_assoc, List.filter_cons, List.filter_cons, ih]
  | pass offset front marker _ found past =>
      -- Neither of the two scans has a comment from here on that ends before the cut.
      have alone : ∀ span ∈ delimitedFrom delimiters offset front,
          offset + Text.size front ≤ span.stop := by
        intro span member
        exact le_stop_of_lt_extent brief unbroken found past member
      obtain ⟨middle, rest, rfl, _, both⟩ := exists_comment_of_lt_extent offset found past
      have reached : offset + Text.size front ≤ offset + Text.size (front ++ middle) := by
        rw [Text.size_append]
        omega
      rw [both, filter_stop_lt_eq_nil alone, filter_stop_lt_eq_nil]
      refine List.forall_mem_cons.mpr ⟨reached, ?_⟩
      intro span member
      exact reached.trans (le_stop_of_mem_delimitedFrom member)

/-- The comments that end before an offset are those of the text up to there, in the same places,
whatever follows. -/
theorem filter_spans_append (profile : Profile) (delimited : profile.delimiters.blocks ≠ [])
    (front : Text) :
    (∀ back,
      (spans profile (front ++ back)).filter (·.stop < Text.size front) =
        (spans profile front).filter (·.stop < Text.size front)) ∧
    ∀ back other,
      (spans profile (front ++ back)).filter (·.stop < Text.size front) =
        (spans profile (front ++ other)).filter (·.stop < Text.size front) := by
  have kept (back : Text) :
      (spans profile (front ++ back)).filter (·.stop < Text.size front) =
        (spans profile front).filter (·.stop < Text.size front) := by
    have isDelimited := Delimiters.isDelimited_iff.mpr delimited
    have cut := filter_delimitedFrom_append profile.delimiters_isBrief
      profile.delimiters_isUnbroken 0 front back
    rw [spans, spans, if_pos isDelimited, if_pos isDelimited]
    rwa [Nat.zero_add] at cut
  refine ⟨kept, ?_⟩
  intro back other
  rw [kept back, kept other]

/-- The cut takes one character off a long opener and leaves a comment of another kind, which is
the only one that changes. -/
theorem filter_spans_append_lua :
    Profile.lua.delimiters.blocks ≠ [] ∧
      spans .lua "--[[a]]x--[".toList = [⟨0, "--[[a]]".toList⟩, ⟨8, "--[".toList⟩] ∧
      spans .lua "--[[a]]x--[[b]]--".toList =
        [⟨0, "--[[a]]".toList⟩, ⟨8, "--[[b]]".toList⟩, ⟨15, "--".toList⟩] ∧
      (spans .lua "--[[a]]x--[[b]]--".toList).filter (·.stop < 11) = [⟨0, "--[[a]]".toList⟩] := by
  have delimited : Profile.lua.delimiters.blocks ≠ [] := by decide
  have short : spans .lua "--[[a]]x--[".toList = [⟨0, "--[[a]]".toList⟩, ⟨8, "--[".toList⟩] := by
    decide +kernel
  have whole := (filter_spans_append .lua delimited "--[[a]]x--[".toList).1 "[b]]--".toList
  rw [short] at whole
  exact ⟨delimited, short, by decide +kernel, whole⟩

end TrackerLinks.Comment
