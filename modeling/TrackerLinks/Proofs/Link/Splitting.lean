import TrackerLinks.Proofs.Comment.Splitting
import TrackerLinks.Proofs.Link.WholeText
import TrackerLinks.Proofs.Position.Translation
import TrackerLinks.Proofs.Reference.Splitting

namespace TrackerLinks

variable {language front back : Text} {reference : Reference}

/-- The same link when its text starts at an offset and a position of another. -/
def Link.shift (distance : Nat) (base : Position) (link : Link) : Link :=
  { link with
    start := distance + link.start
    stop := distance + link.stop
    range := ⟨link.range.start.after base, link.range.stop.after base⟩ }

theorem Comment.references_shift (distance : Nat) (span : Comment.Span) :
    (span.shift distance).references = span.references.map (Reference.shift distance) := by
  rw [Span.references, Span.references, List.map_map]
  apply List.map_congr_left
  intro reference _
  simp only [Function.comp_apply, Span.shift, Reference.shift, Nat.add_assoc]

theorem commentReferences_append (cut : Comment.IsCut (.ofLanguage language) front back) :
    commentReferences language (front ++ back) =
      commentReferences language front ++
        (commentReferences language back).map (Reference.shift (Text.size front)) := by
  rw [commentReferences, Comment.spansIn, Comment.spans_append cut, List.flatMap_append,
    List.flatMap_map, commentReferences, commentReferences, List.map_flatMap]
  congr 1
  apply List.flatMap_congr
  intro span _
  exact Comment.references_shift _ span

theorem rangeOf_append_left (member : reference ∈ Reference.inText front) (back : Text) :
    Text.rangeOf (front ++ back) reference.start reference.stop =
      Text.rangeOf front reference.start reference.stop := by
  have inside := (Reference.mem_inText_iff.mp member).2.stop_le
  rw [← Reference.stop] at inside
  have := reference.start_lt_stop
  rw [Text.rangeOf, Text.rangeOf, Text.positionAt_append_of_le back (by omega),
    Text.positionAt_append_of_le back inside]

theorem rangeOf_append_right (front : Text) (member : reference ∈ Reference.inText back) :
    Text.rangeOf (front ++ back) (Text.size front + reference.start)
        (Text.size front + reference.stop) =
      let range := Text.rangeOf back reference.start reference.stop
      let base := Text.positionAt (front ++ back) (Text.size front)
      ⟨range.start.after base, range.stop.after base⟩ := by
  obtain ⟨starts, stops⟩ := Reference.isBoundary_of_mem member
  rw [Text.rangeOf, Text.positionAt_append_add front starts, Text.positionAt_append_add front stops]
  rfl

/-- Cut outside its comments, a text has the comments and the links of the front and then those of
the back, with the length of the front added to offsets and its last position put under positions.
And a comment of a language with blocks is one comment on its own. -/
theorem links_append (language : Text) (repository : Repository) :
    (∀ front back, Comment.IsCut (.ofLanguage language) front back →
      Comment.spansIn language (front ++ back) =
          Comment.spansIn language front ++
            (Comment.spansIn language back).map (Comment.Span.shift (Text.size front)) ∧
        links language (front ++ back) repository =
          links language front repository ++
            (links language back repository).map
              (Link.shift (Text.size front) (Text.positionAt (front ++ back) (Text.size front)))) ∧
    ((Comment.Profile.ofLanguage language).delimiters.isDelimited → ∀ text,
      ∀ span ∈ Comment.spansIn language text,
        Comment.spansIn language span.text = [⟨0, span.text⟩]) := by
  refine ⟨?_, ?_⟩
  · intro front back cut
    refine ⟨Comment.spans_append cut, ?_⟩
    rw [links_eq_map, commentReferences_append cut, List.map_append, List.map_map, links_eq_map,
      links_eq_map, List.map_map]
    congr 1
    · apply List.map_congr_left
      intro reference member
      rw [rangeOf_append_left (mem_commentReferences_iff.mp member).1]
    · apply List.map_congr_left
      intro reference member
      have stop : (reference.shift (Text.size front)).stop = Text.size front + reference.stop :=
        Nat.add_assoc _ _ _
      have range := rangeOf_append_right front (mem_commentReferences_iff.mp member).1
      rw [Function.comp_apply, Function.comp_apply, Link.shift, Link.ofReference, stop,
        Reference.shift]
      dsimp only
      rw [range]
      rfl
  · intro delimited text span member
    rw [Comment.spansIn, Comment.spans, if_pos delimited] at member ⊢
    exact Comment.delimitedFrom_text member

/-- The cut is between two comments on one line, so that the second link has the column of the cut
added, and the third, on the line after it, only the line. -/
theorem links_append_mid_line :
    Comment.IsCut (.ofLanguage "lua".toList) "é\n--[[ ü ]]".toList "--[[(#1)\n(#2)]]".toList ∧
      (links "lua".toList "é\n--[[ ü ]]--[[(#1)\n(#2)]]".toList ⟨.gitHub, [], []⟩).map
          (fun link => (link.start, link.stop, link.range)) =
        [(17, 21, ⟨⟨1, 13⟩, ⟨1, 17⟩⟩), (22, 26, ⟨⟨2, 0⟩, ⟨2, 4⟩⟩)] ∧
      (Comment.Profile.ofLanguage "lua".toList).delimiters.isDelimited ∧
      ⟨3, "--[[ ü ]]".toList⟩ ∈ Comment.spansIn "lua".toList "é\n--[[ ü ]]".toList ∧
      Comment.spansIn "lua".toList "--[[ ü ]]".toList = [⟨0, "--[[ ü ]]".toList⟩] := by
  obtain ⟨split, alone⟩ := links_append "lua".toList ⟨.gitHub, [], []⟩
  have cut : Comment.IsCut (.ofLanguage "lua".toList) "é\n--[[ ü ]]".toList
      "--[[(#1)\n(#2)]]".toList := by decide +kernel
  have whole : "é\n--[[ ü ]]".toList ++ "--[[(#1)\n(#2)]]".toList =
      "é\n--[[ ü ]]--[[(#1)\n(#2)]]".toList := by decide
  have delimited : (Comment.Profile.ofLanguage "lua".toList).delimiters.isDelimited := by
    decide +kernel
  have found : Comment.spansIn "lua".toList "é\n--[[ ü ]]".toList = [⟨3, "--[[ ü ]]".toList⟩] := by
    decide +kernel
  have member : ⟨3, "--[[ ü ]]".toList⟩ ∈ Comment.spansIn "lua".toList "é\n--[[ ü ]]".toList := by
    rw [found]
    exact List.mem_singleton_self _
  have parts := (split _ _ cut).2
  rw [whole] at parts
  refine ⟨cut, ?_, delimited, member, alone delimited _ _ member⟩
  rw [parts]
  decide +kernel

end TrackerLinks
