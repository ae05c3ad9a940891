import TrackerLinks.Proofs.Comment.Delimited
import TrackerLinks.Proofs.Text.Lines

namespace TrackerLinks.Comment

variable {delimiters : Delimiters} {openers : List Text} {text content : Text} {span : Span}
  {start stop : Nat}

/-- One of the comments holds all from `start` to `stop`. -/
def IsCovered (comments : List Span) (start stop : Nat) : Prop :=
  ∃ span ∈ comments, span.start ≤ start ∧ stop ≤ span.stop

instance (comments : List Span) (start stop : Nat) : Decidable (IsCovered comments start stop) :=
  inferInstanceAs (Decidable (∃ span ∈ comments, span.start ≤ start ∧ stop ≤ span.stop))

@[simp] theorem isCovered_cons_iff {more : List Span} :
    IsCovered (span :: more) start stop ↔
      (span.start ≤ start ∧ stop ≤ span.stop) ∨ IsCovered more start stop := by
  simp [IsCovered]

@[simp] theorem not_isCovered_nil : ¬ IsCovered [] start stop := by
  simp [IsCovered]

theorem content_ne_nil_of_opensLine (nonempty : ∀ opener ∈ openers, opener ≠ [])
    (h : opensLine openers content) : content ≠ [] := by
  intro empty
  subst empty
  obtain ⟨opener, member, opens⟩ := List.any_eq_true.mp h
  apply nonempty opener member
  exact List.prefix_nil.mp (List.isPrefixOf_iff_prefix.mp opens)

theorem Delimiters.line_mem_markers {opener : Text} (member : opener ∈ delimiters.lineOpeners) :
    Marker.line opener ∈ delimiters.markers := by
  obtain ⟨marker, found, isLine⟩ := List.mem_filterMap.mp member
  cases marker with
  | line opener' =>
      obtain rfl := Option.some.inj isLine
      exact found
  | block _ _ => cases isLine

theorem Delimiters.lineOpeners_ne_nil (delimiters : Delimiters) :
    ∀ opener ∈ delimiters.lineOpeners, opener ≠ [] := by
  intro opener member
  exact delimiters.opener_ne_nil _ (line_mem_markers member)

theorem mem_commentLines_iff :
    span ∈ commentLines openers text ↔
      ∃ line ∈ Text.linesAt 0 text, opensLine openers (Text.dropReturn line.body) ∧
        span = ⟨line.start, Text.dropReturn line.body⟩ := by
  rw [commentLines, List.mem_filterMap]
  apply exists_congr
  intro line
  apply and_congr_right
  intro _
  dsimp only
  split
  · rename_i opens
    rw [Option.some.injEq, and_iff_right opens, eq_comm]
  · rename_i closed
    simp [closed]

theorem occursAt_of_mem_commentLines (h : span ∈ commentLines openers text) :
    Text.OccursAt span.text text span.start := by
  obtain ⟨line, member, _, rfl⟩ := mem_commentLines_iff.mp h
  exact (Text.occursAt_of_mem_linesAt [] text line member).of_isPrefix (Text.dropReturn_isPrefix _)

theorem commentLines_ordered (openers : List Text) (text : Text) :
    (commentLines openers text).Pairwise fun earlier later => earlier.stop < later.start := by
  rw [commentLines, List.pairwise_filterMap]
  apply (Text.linesAt_ordered 0 text).2.imp
  intro earlier later before first opened second opened'
  dsimp only at opened opened'
  split at opened
  · split at opened'
    · obtain rfl := Option.some.inj opened
      obtain rfl := Option.some.inj opened'
      have shorter := Text.size_le_of_isPrefix (Text.dropReturn_isPrefix earlier.body)
      rw [Span.stop]
      dsimp only
      omega
    · cases opened'
  · cases opened

theorem occursAt_of_mem_spans {profile : Profile} (h : span ∈ spans profile text) :
    Text.OccursAt span.text text span.start := by
  rw [spans] at h
  split at h
  · exact (isScanFrom_delimitedFrom profile.delimiters_distinct text).occurs span h
  · exact occursAt_of_mem_commentLines h

theorem start_lt_stop_of_mem_spans {profile : Profile} (h : span ∈ spans profile text) :
    span.start < span.stop := by
  rw [spans] at h
  split at h
  · exact (isScanFrom_delimitedFrom profile.delimiters_distinct text).start_lt_stop h
  · obtain ⟨line, _, opens, rfl⟩ := mem_commentLines_iff.mp h
    have nonempty := content_ne_nil_of_opensLine profile.delimiters.lineOpeners_ne_nil opens
    exact Nat.lt_add_of_pos_right (Text.size_pos nonempty)

theorem spans_ordered (profile : Profile) (text : Text) :
    (spans profile text).Pairwise fun earlier later => earlier.stop ≤ later.start := by
  rw [spans]
  split
  · exact (isScanFrom_delimitedFrom profile.delimiters_distinct text).ordered
  · exact (commentLines_ordered _ text).imp Nat.le_of_lt

/-- The bytes of the text from `start` to `stop` are whole characters, at least one, and those that
the span tells. -/
structure Span.IsSound (text : Text) (span : Span) : Prop where
  start_lt_stop : span.start < span.stop
  stop_le_size : span.stop ≤ Text.size text
  isBoundary_start : Text.IsBoundary text span.start
  isBoundary_stop : Text.IsBoundary text span.stop
  extract_eq : text.utf8Encode.extract span.start span.stop = span.text.utf8Encode

theorem spansIn_sound (language text : Text) :
    (∀ span ∈ spansIn language text, span.IsSound text) ∧
      (spansIn language text).Pairwise fun earlier later => earlier.stop ≤ later.start := by
  refine ⟨?_, spans_ordered _ text⟩
  intro span member
  have occurs := occursAt_of_mem_spans member
  exact
    { start_lt_stop := start_lt_stop_of_mem_spans member
      stop_le_size := occurs.stop_le
      isBoundary_start := occurs.isBoundary
      isBoundary_stop := occurs.isBoundary_stop
      extract_eq := occurs.extract_utf8Encode }

theorem spansIn_sound_python :
    (⟨4, "  # ü".toList⟩ : Span) ∈ spansIn "python".toList "é\r\n  # ü\r\n".toList ∧
      (⟨4, "  # ü".toList⟩ : Span).IsSound "é\r\n  # ü\r\n".toList := by
  have found : spansIn "python".toList "é\r\n  # ü\r\n".toList = [⟨4, "  # ü".toList⟩] := by
    decide +kernel
  have member : (⟨4, "  # ü".toList⟩ : Span) ∈ spansIn "python".toList "é\r\n  # ü\r\n".toList := by
    rw [found]
    exact List.mem_singleton_self _
  exact ⟨member, (spansIn_sound _ _).1 _ member⟩

end TrackerLinks.Comment
