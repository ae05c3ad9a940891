import TrackerLinks.Link
import TrackerLinks.Proofs.Comment.Soundness
import TrackerLinks.Proofs.Position.LineIndex
import TrackerLinks.Proofs.Reference.Occurrence

namespace TrackerLinks

variable {language text : Text} {reference : Reference} {span : Comment.Span}

namespace Comment

def Covers (language text : Text) (start stop : Nat) : Prop :=
  IsCovered (spansIn language text) start stop

instance (language text : Text) (start stop : Nat) : Decidable (Covers language text start stop) :=
  inferInstanceAs (Decidable (IsCovered (spansIn language text) start stop))

theorem mem_references_iff (found : span ∈ spansIn language text) :
    reference ∈ span.references ↔
      reference ∈ Reference.inText text ∧ span.start ≤ reference.start ∧
        reference.stop ≤ span.stop := by
  have occurs := occursAt_of_mem_spans found
  rw [Span.references, List.mem_map, Reference.mem_inText_iff]
  constructor
  · intro h
    obtain ⟨inner, member, rfl⟩ := h
    obtain ⟨wellFormed, inside⟩ := Reference.mem_inText_iff.mp member
    obtain ⟨here, fits⟩ := occurs.inner_iff.mp inside
    refine ⟨⟨wellFormed, here⟩, Nat.le_add_right _ _, ?_⟩
    rw [Reference.stop, Span.stop]
    dsimp only
    omega
  · intro h
    obtain ⟨⟨wellFormed, here⟩, starts, stops⟩ := h
    rw [Reference.stop, Span.stop] at stops
    have place : span.start + (reference.start - span.start) = reference.start := by omega
    refine ⟨⟨reference.start - span.start, reference.spelling⟩, ?_, ?_⟩
    · rw [Reference.mem_inText_iff, occurs.inner_iff, place]
      refine ⟨wellFormed, here, ?_⟩
      dsimp only
      omega
    · rw [place]

theorem references_ordered (span : Span) :
    span.references.Pairwise fun earlier later => earlier.stop ≤ later.start := by
  rw [Span.references, List.pairwise_map]
  apply (Reference.inText_ordered span.text).imp
  intro earlier later apart
  rw [Reference.stop] at apart ⊢
  dsimp only
  omega

end Comment

theorem mem_commentReferences_iff :
    reference ∈ commentReferences language text ↔
      reference ∈ Reference.inText text ∧
        Comment.Covers language text reference.start reference.stop := by
  rw [commentReferences, List.mem_flatMap]
  constructor
  · intro h
    obtain ⟨span, found, member⟩ := h
    obtain ⟨here, covered⟩ := (Comment.mem_references_iff found).mp member
    exact ⟨here, span, found, covered⟩
  · intro h
    obtain ⟨here, span, found, covered⟩ := h
    exact ⟨span, found, (Comment.mem_references_iff found).mpr ⟨here, covered⟩⟩

theorem commentReferences_ordered (language text : Text) :
    (commentReferences language text).Pairwise fun earlier later =>
      earlier.stop ≤ later.start := by
  apply List.pairwise_flatMap.mpr
  refine ⟨fun span _ => Comment.references_ordered span, ?_⟩
  apply (Comment.spans_ordered _ text).imp_of_mem
  intro earlier later found found' apart first member second member'
  have inside := (Comment.mem_references_iff found).mp member
  have inside' := (Comment.mem_references_iff found').mp member'
  omega

theorem commentReferences_eq_filter (language text : Text) :
    commentReferences language text =
      (Reference.inText text).filter fun reference =>
        Comment.Covers language text reference.start reference.stop := by
  apply Reference.eq_of_ordered (commentReferences_ordered language text)
    ((Reference.inText_ordered text).filter _)
  intro reference
  rw [mem_commentReferences_iff, List.mem_filter, decide_eq_true_eq]

theorem links_eq_map (language text : Text) (repository : Repository) :
    links language text repository =
      (commentReferences language text).map fun reference =>
        Link.ofReference repository reference
          (Text.rangeOf text reference.start reference.stop) := by
  simp only [links, LineIndex.range_ofText]

/-- The number that the target of a link ends with, if it leads to an issue of the repository. -/
def Link.issueNumber? (repository : Repository) (link : Link) : Option Text :=
  let issues := repository.issueUrl []
  if issues.isPrefixOf link.target then some (link.target.drop issues.length) else none

theorem Repository.issueUrl_eq_append (repository : Repository) (number : Text) :
    repository.issueUrl number = repository.issueUrl [] ++ number := by
  simp [issueUrl, Provider.issueUrl]

theorem Link.issueNumber?_ofReference (repository : Repository) (reference : Reference)
    (range : Range) :
    (ofReference repository reference range).issueNumber? repository = some reference.number := by
  rw [issueNumber?, ofReference]
  dsimp only
  rw [repository.issueUrl_eq_append reference.number, List.drop_left,
    if_pos (List.isPrefixOf_iff_prefix.mpr (List.prefix_append _ _))]

/-- How often a text is linked from `start` to `stop`. -/
def linkCount (language text : Text) (repository : Repository) (start stop : Nat) : Nat :=
  (links language text repository).countP fun link => link.start = start ∧ link.stop = stop

theorem linkCount_eq_count (language : Text) (repository : Repository)
    (member : reference ∈ Reference.inText text) :
    linkCount language text repository reference.start reference.stop =
      (commentReferences language text).count reference := by
  rw [linkCount, links_eq_map, List.countP_map, List.count]
  apply List.countP_congr
  intro other found
  have inside := (mem_commentReferences_iff.mp found).1
  simp only [Function.comp_apply, Link.ofReference, decide_eq_true_eq, beq_iff_eq]
  constructor
  · intro same
    exact Reference.eq_of_start_eq inside member same.1
  · intro equal
    subst equal
    exact ⟨rfl, rfl⟩

/-- The links are the references of the whole text that one comment covers: each of these is linked
once, at its own offsets, and no other reference is linked. -/
theorem links_eq_filter_covered (language text : Text) (repository : Repository) :
    ((links language text repository).map fun link =>
        (link.start, link.stop, link.issueNumber? repository)) =
      ((Reference.inText text).filter fun reference =>
          Comment.Covers language text reference.start reference.stop).map
        (fun reference => (reference.start, reference.stop, some reference.number)) ∧
    ∀ (spelling : Spelling) (start : Nat), spelling.WellFormed →
      Text.OccursAt spelling.text text start →
        linkCount language text repository start (start + Text.size spelling.text) =
          if Comment.Covers language text start (start + Text.size spelling.text) then 1
          else 0 := by
  constructor
  · rw [links_eq_map, List.map_map, commentReferences_eq_filter]
    apply List.map_congr_left
    intro reference _
    rw [Function.comp_apply, Link.issueNumber?_ofReference]
    rfl
  · intro spelling start wellFormed occurs
    have member : ⟨start, spelling⟩ ∈ Reference.inText text :=
      Reference.mem_inText_iff.mpr ⟨wellFormed, occurs⟩
    have counted := linkCount_eq_count language repository member
    rw [(Reference.nodup_of_ordered (commentReferences_ordered language text)).count] at counted
    simp only [mem_commentReferences_iff, member, true_and] at counted
    exact counted

/-- Where a hash opens a comment, it takes the reference around it apart and covers the next one. -/
theorem linkCount_php_hash :
    (⟨[], [], ['2'], []⟩ : Spelling).WellFormed ∧
      Text.OccursAt "(#2)".toList "(#1) (#2)".toList 5 ∧
      linkCount "php".toList "(#1) (#2)".toList ⟨.gitHub, [], []⟩ 5 9 = 1 ∧
      linkCount "php".toList "(#1) (#2)".toList ⟨.gitHub, [], []⟩ 0 4 = 0 := by
  have wellFormed (digit : Char) (isDigit : Spelling.isDigit digit) :
      (⟨[], [], [digit], []⟩ : Spelling).WellFormed :=
    ⟨by simp, by simp, by simpa using isDigit, by simp, by simp⟩
  have first : Text.OccursAt "(#1)".toList "(#1) (#2)".toList 0 :=
    ⟨[], " (#2)".toList, by decide, rfl⟩
  have second : Text.OccursAt "(#2)".toList "(#1) (#2)".toList 5 :=
    ⟨"(#1) ".toList, [], by decide, by decide⟩
  have found : Comment.spansIn "php".toList "(#1) (#2)".toList = [⟨1, "#1) (#2)".toList⟩] := by
    decide +kernel
  have outside : ¬ Comment.Covers "php".toList "(#1) (#2)".toList 0 4 := by
    rw [Comment.Covers, found]
    decide
  have covered : Comment.Covers "php".toList "(#1) (#2)".toList 5 9 := by
    rw [Comment.Covers, found]
    decide
  have counts := (links_eq_filter_covered "php".toList "(#1) (#2)".toList ⟨.gitHub, [], []⟩).2
  refine ⟨wellFormed '2' (by decide), second, ?_, ?_⟩
  · exact (counts _ 5 (wellFormed '2' (by decide)) second).trans (if_pos covered)
  · exact (counts _ 0 (wellFormed '1' (by decide)) first).trans (if_neg outside)

end TrackerLinks
