import TrackerLinks.Proofs.Comment.Soundness
import TrackerLinks.Proofs.Text.Returns

namespace TrackerLinks.Comment

variable {delimiters : Delimiters} {marker : Marker} {text rest : Text}

/-- No delimiter of it has a line break in it, and a closer is not empty. -/
def Marker.IsUnbroken : Marker → Prop
  | .line opener => Text.IsUnbroken opener
  | .block opener closer => Text.IsUnbroken opener ∧ Text.IsUnbroken closer ∧ closer ≠ []

instance : DecidablePred Marker.IsUnbroken
  | .line opener => inferInstanceAs (Decidable (Text.IsUnbroken opener))
  | .block opener closer =>
      inferInstanceAs (Decidable (Text.IsUnbroken opener ∧ Text.IsUnbroken closer ∧ closer ≠ []))

theorem Marker.IsUnbroken.opener (unbroken : marker.IsUnbroken) :
    Text.IsUnbroken marker.opener := by
  cases marker with
  | line opener => exact unbroken
  | block opener closer => exact unbroken.1

def Delimiters.IsUnbroken (delimiters : Delimiters) : Prop :=
  ∀ marker ∈ delimiters.markers, marker.IsUnbroken

theorem Profile.delimiters_isUnbroken (profile : Profile) : profile.delimiters.IsUnbroken := by
  unfold Delimiters.IsUnbroken
  cases profile <;> decide

theorem Delimiters.markerAt?_withReturns (unbroken : delimiters.IsUnbroken) (text : Text) :
    delimiters.markerAt? (Text.withReturns text) = delimiters.markerAt? text := by
  apply markerAt?_congr
  intro marker member
  exact Text.prefix_withReturns_iff (unbroken marker member).opener

theorem Delimiters.markerAt?_of_isLineBreak (unbroken : delimiters.IsUnbroken) {c : Char}
    (breaks : isLineBreak c) (rest : Text) : delimiters.markerAt? (c :: rest) = none := by
  rw [markerAt?_eq_none_iff]
  intro marker member opens
  obtain ⟨d, opener, same⟩ := List.exists_cons_of_ne_nil (delimiters.opener_ne_nil marker member)
  obtain ⟨notReturn, notFeed, _⟩ :=
    Text.isUnbroken_cons_iff.mp (same ▸ (unbroken marker member).opener)
  rw [same, List.cons_prefix_cons] at opens
  rw [← opens.1, Marker.isLineBreak_eq_false_iff.mpr ⟨notReturn, notFeed⟩] at breaks
  cases breaks

theorem takeWhile_withReturns (text : Text) :
    (Text.withReturns text).takeWhile (!isLineBreak ·) =
      Text.withReturns (text.takeWhile (!isLineBreak ·)) := by
  induction text with
  | nil => rfl
  | cons c text ih =>
      by_cases feed : c = '\n'
      · subst feed
        rfl
      · rw [Text.withReturns_cons feed]
        cases broken : isLineBreak c with
        | true => simp [broken]
        | false => simp [broken, ih, Text.withReturns_cons feed]

theorem Marker.take_extent_withReturns (unbroken : marker.IsUnbroken)
    (opens : marker.opener <+: rest) :
    (Text.withReturns rest).take (marker.extent (Text.withReturns rest)) =
      Text.withReturns (rest.take (marker.extent rest)) := by
  obtain ⟨tail, rfl⟩ := opens
  have kept := Text.withReturns_of_not_mem unbroken.opener.2
  cases marker with
  | line opener =>
      simp only [Marker.opener] at kept ⊢
      rw [take_extent_line, Text.withReturns_append, Text.withReturns_append, kept,
        take_extent_line, takeWhile_withReturns]
  | block opener closer =>
      obtain ⟨_, unbroken, nonempty⟩ := unbroken
      have moved := Text.index?_withReturns nonempty unbroken tail
      simp only [Marker.opener] at kept ⊢
      rw [Text.withReturns_append, kept]
      cases found : Text.index? closer tail with
      | none =>
          rw [found] at moved
          rw [take_extent_block_of_open found, take_extent_block_of_open moved,
            Text.withReturns_append, kept]
      | some inside =>
          rw [found] at moved
          have front : (Text.withReturns tail).take (Text.withReturns (tail.take inside)).length =
              Text.withReturns (tail.take inside) := by
            conv => lhs; arg 2; rw [← List.take_append_drop inside tail, Text.withReturns_append]
            exact List.take_left
          rw [take_extent_block_of_closed found, take_extent_block_of_closed moved, front]
          simp only [Text.withReturns_append, kept, Text.withReturns_of_not_mem unbroken.2]

theorem Marker.drop_extent_withReturns (unbroken : marker.IsUnbroken)
    (opens : marker.opener <+: rest) :
    (Text.withReturns rest).drop (marker.extent (Text.withReturns rest)) =
      Text.withReturns (rest.drop (marker.extent rest)) := by
  have whole : Text.withReturns (rest.take (marker.extent rest)) ++
      (Text.withReturns rest).drop (marker.extent (Text.withReturns rest)) =
      Text.withReturns (rest.take (marker.extent rest)) ++
        Text.withReturns (rest.drop (marker.extent rest)) := by
    rw [← Text.withReturns_append, List.take_append_drop, ← take_extent_withReturns unbroken opens,
      List.take_append_drop]
  exact List.append_cancel_left whole

/-- The same comment when the text has returns. -/
def Span.withReturns (text : Text) (span : Span) : Span :=
  ⟨Text.moved text span.start, Text.withReturns span.text⟩

theorem delimitedFrom_withReturns (unbroken : delimiters.IsUnbroken) (before rest : Text)
    {offset : Nat} (place : Text.size before = offset) :
    delimitedFrom delimiters (Text.size (Text.withReturns before)) (Text.withReturns rest) =
      (delimitedFrom delimiters offset rest).map (Span.withReturns (before ++ rest)) := by
  fun_induction delimitedFrom delimiters offset rest generalizing before with
  | case1 offset => simp [delimitedFrom]
  | case2 offset c rest none ih =>
      have step := ih (before ++ [c]) (by simp [place])
      rw [List.append_assoc, List.singleton_append] at step
      rw [← step, Text.withReturns_append, Text.size_append]
      by_cases feed : c = '\n'
      · subst feed
        rw [Text.withReturns_feed, delimitedFrom_of_markerAt?_eq_none _
            (Delimiters.markerAt?_of_isLineBreak unbroken rfl _),
          delimitedFrom_of_markerAt?_eq_none _
            (Delimiters.markerAt?_of_isLineBreak unbroken rfl _), Nat.add_assoc]
        rfl
      · have none' := none
        rw [← Delimiters.markerAt?_withReturns unbroken, Text.withReturns_cons feed] at none'
        rw [Text.withReturns_cons feed, delimitedFrom_of_markerAt?_eq_none _ none',
          Text.withReturns_cons feed]
        rfl
  | case3 offset c rest marker found comment =>
      rename_i ih
      have opens := Delimiters.opener_prefix_of_markerAt? found
      have unbroken' := unbroken marker (Delimiters.mem_of_markerAt? found)
      have cut : comment ++ (c :: rest).drop (marker.extent (c :: rest)) = c :: rest :=
        List.take_append_drop _ _
      have step := ih (before ++ comment) (by rw [Text.size_append, place])
      rw [List.append_assoc, cut, Text.withReturns_append, Text.size_append] at step
      have found' := found
      rw [← Delimiters.markerAt?_withReturns unbroken] at found'
      obtain ⟨d, rest', whole⟩ := List.exists_cons_of_ne_nil
        (Text.withReturns_ne_nil (List.cons_ne_nil c rest))
      rw [whole] at found' ⊢
      rw [delimitedFrom_of_markerAt?_eq_some _ found', ← whole,
        Marker.take_extent_withReturns unbroken' opens,
        Marker.drop_extent_withReturns unbroken' opens, step, List.map_cons, Span.withReturns]
      subst place
      rw [Text.moved_append]

theorem commentLines_withReturns (openers : List Text) (absent : '\r' ∉ text) :
    commentLines openers (Text.withReturns text) =
      (commentLines openers text).map (Span.withReturns text) := by
  have lines : Text.lines (Text.withReturns text) =
      (Text.lines text).map (Line.withReturns text) := Text.linesAt_withReturns [] text
  rw [commentLines, commentLines, lines, List.filterMap_map, List.map_filterMap]
  apply List.filterMap_congr
  intro line member
  have content : Text.dropReturn line.body = line.body := by
    apply Text.dropReturn_of_not_suffix
    intro returns
    apply absent
    exact (Text.occursAt_of_mem_linesAt [] text line member).subset
      (returns.subset (List.mem_singleton_self _))
  have content' : Text.dropReturn (line.withReturns text).body = line.body := by
    rw [Line.withReturns]
    dsimp only
    split
    · exact Text.dropReturn_append_return line.body
    · exact content
  have unfed := Text.feed_not_mem_of_mem_linesAt 0 text line member
  simp only [Function.comp_apply, content, content']
  split
  · rw [Option.map_some, Span.withReturns, Text.withReturns_of_not_mem unfed]
    rfl
  · rfl

theorem spans_withReturns (profile : Profile) (absent : '\r' ∉ text) :
    spans profile (Text.withReturns text) = (spans profile text).map (Span.withReturns text) := by
  rw [spans, spans]
  split
  · exact delimitedFrom_withReturns profile.delimiters_isUnbroken [] text Text.size_nil
  · exact commentLines_withReturns _ absent

end TrackerLinks.Comment
