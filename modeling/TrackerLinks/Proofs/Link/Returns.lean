import TrackerLinks.Proofs.Comment.Returns
import TrackerLinks.Proofs.Link.WholeText
import TrackerLinks.Proofs.Reference.Returns

namespace TrackerLinks

variable {language text : Text} {reference : Reference} {span : Comment.Span}

theorem Reference.stop_withReturns (member : reference ∈ inText text) :
    (reference.withReturns text).stop = Text.moved text reference.stop := by
  obtain ⟨wellFormed, before, after, rfl, place⟩ := mem_inText_iff.mp member
  rw [stop, stop, withReturns]
  dsimp only
  rw [wellFormed.text_withReturns, ← place, List.append_assoc, Text.moved_add]

theorem Comment.references_withReturns (occurs : Text.OccursAt span.text text span.start)
    (absent : '\r' ∉ text) :
    (span.withReturns text).references = span.references.map (Reference.withReturns text) := by
  have absent' : '\r' ∉ span.text := fun member => absent (occurs.subset member)
  rw [Span.references, Span.references, Span.withReturns, Reference.inText_withReturns absent',
    List.map_map, List.map_map]
  apply List.map_congr_left
  intro reference member
  obtain ⟨_, front, back, whole, place⟩ := Reference.mem_inText_iff.mp member
  obtain ⟨before, after, rfl, place'⟩ := occurs
  -- An offset in the span moves by the lines of the span, and these follow the lines before it.
  have inner : Text.moved span.text reference.start = Text.size (Text.withReturns front) := by
    rw [whole, ← place, List.append_assoc, Text.moved_append]
  have outer := Text.moved_add before front (reference.spelling.text ++ back ++ after)
  have same : before ++ (front ++ (reference.spelling.text ++ back ++ after)) =
      before ++ span.text ++ after := by
    rw [whole]
    simp
  rw [same, place, place'] at outer
  simp only [Function.comp_apply, Reference.withReturns, outer, inner]

theorem commentReferences_withReturns (language : Text) (absent : '\r' ∉ text) :
    commentReferences language (Text.withReturns text) =
      (commentReferences language text).map (Reference.withReturns text) := by
  rw [commentReferences, commentReferences, Comment.spansIn, Comment.spansIn,
    Comment.spans_withReturns _ absent, List.flatMap_map, List.map_flatMap]
  apply List.flatMap_congr
  intro span member
  exact Comment.references_withReturns (Comment.occursAt_of_mem_spans member) absent

/-- A text without returns has the same links with `\r\n` for each `\n`: each at the same range,
with the same target and tooltip, and at offsets that count one return for each line before. -/
theorem links_withReturns (language : Text) (repository : Repository) (absent : '\r' ∉ text) :
    links language (Text.withReturns text) repository =
      (links language text repository).map fun link =>
        { link with
          start := link.start + link.range.start.line
          stop := link.stop + link.range.stop.line } := by
  rw [links_eq_map, links_eq_map, commentReferences_withReturns language absent, List.map_map,
    List.map_map]
  apply List.map_congr_left
  intro reference member
  have found := (mem_commentReferences_iff.mp member).1
  obtain ⟨starts, stops⟩ := Reference.isBoundary_of_mem found
  have stop := Reference.stop_withReturns found
  have start : (reference.withReturns text).start = Text.moved text reference.start := rfl
  have range : Text.rangeOf (Text.withReturns text) (reference.withReturns text).start
      (reference.withReturns text).stop = Text.rangeOf text reference.start reference.stop := by
    rw [Text.rangeOf, Text.rangeOf, start, stop, Text.positionAt_moved starts,
      Text.positionAt_moved stops]
  simp only [Function.comp_apply, range]
  simp only [Link.ofReference, start, stop]
  rfl

/-- The second line break is inside a reference, so that its link ends one line after it starts. -/
theorem links_withReturns_across_lines :
    '\r' ∉ "\n/* (#\n07) */".toList ∧
      Text.withReturns "\n/* (#\n07) */".toList = "\r\n/* (#\r\n07) */".toList ∧
      (links "rust".toList "\r\n/* (#\r\n07) */".toList ⟨.gitHub, [], []⟩).map
          (fun link => (link.start, link.stop, link.range, link.tooltip)) =
        [(5, 12, ⟨⟨1, 3⟩, ⟨2, 3⟩⟩, "Open GitHub Issue #07".toList)] := by
  have absent : '\r' ∉ "\n/* (#\n07) */".toList := by decide
  have lines : Text.withReturns "\n/* (#\n07) */".toList = "\r\n/* (#\r\n07) */".toList := by
    decide
  refine ⟨absent, lines, ?_⟩
  rw [← lines, links_withReturns _ _ absent]
  decide +kernel

end TrackerLinks
