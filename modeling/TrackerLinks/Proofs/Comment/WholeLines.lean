import Mathlib.Data.List.Sort
import TrackerLinks.Proofs.Comment.Soundness

namespace TrackerLinks.Comment

variable {openers : List Text} {text content : Text} {span : Span} {comments comments' : List Span}

/-- An opener comes first after all white space at the beginning. -/
def IsOpened (openers : List Text) (content : Text) : Prop :=
  ∃ lead rest, content = lead ++ rest ∧ (∀ c ∈ lead, Text.isBlank c) ∧
    (∀ c ∈ rest.head?, Text.isBlank c = false) ∧ ∃ opener ∈ openers, opener <+: rest

theorem isOpened_iff : IsOpened openers content ↔ opensLine openers content := by
  simp only [opensLine, List.any_eq_true, List.isPrefixOf_iff_prefix]
  constructor
  · rintro ⟨lead, rest, same, inside, stop, opens⟩
    have trimmed : Text.trimStart content = rest :=
      Text.dropWhile_eq_iff.mpr ⟨stop, lead, inside, same⟩
    rwa [trimmed]
  · intro opens
    obtain ⟨stop, lead, inside, same⟩ :=
      Text.dropWhile_eq_iff.mp (Eq.refl (Text.trimStart content))
    exact ⟨lead, Text.trimStart content, same, inside, stop, opens⟩

/-- The span is a line with an opener, all of it but its line feed and one return before that. -/
structure IsCommentLine (openers : List Text) (text : Text) (span : Span) : Prop where
  isLine : ∃ body, Text.IsLineAt text body span.start ∧ Text.IsCutShort ['\r'] body span.text
  isOpened : IsOpened openers span.text

theorem mem_commentLines_iff_isCommentLine :
    span ∈ commentLines openers text ↔ IsCommentLine openers text span := by
  rw [mem_commentLines_iff]
  constructor
  · rintro ⟨line, member, opens, rfl⟩
    exact
      { isLine := ⟨line.body, Text.exists_mem_linesAt_iff.mp ⟨line, member, rfl, rfl⟩,
          Text.isCutShort_iff_eq.mpr rfl⟩
        isOpened := isOpened_iff.mpr opens }
  · rintro ⟨⟨body, isLine, short⟩, isOpened⟩
    obtain ⟨line, member, starts, rfl⟩ := Text.exists_mem_linesAt_iff.mpr isLine
    have cut : Text.dropReturn line.body = span.text := Text.isCutShort_iff_eq.mp short
    refine ⟨line, member, ?_, ?_⟩
    · rw [cut]
      exact isOpened_iff.mp isOpened
    · rw [cut, starts]

theorem IsCommentLine.feed_not_mem (isComment : IsCommentLine openers text span) :
    '\n' ∉ span.text := by
  obtain ⟨body, isLine, short⟩ := isComment.isLine
  exact fun feed => isLine.feed_not_mem (short.isPrefix.subset feed)

/-- `comments` has the comment lines of `text`, each once, from first to last. -/
structure IsLineScan (openers : List Text) (text : Text) (comments : List Span) : Prop where
  ordered : comments.Pairwise fun earlier later => earlier.stop < later.start
  mem_iff : ∀ span, span ∈ comments ↔ IsCommentLine openers text span

theorem IsLineScan.unique (scan : IsLineScan openers text comments)
    (scan' : IsLineScan openers text comments') : comments = comments' := by
  have asymm : Std.Asymm fun earlier later : Span => earlier.stop < later.start := by
    constructor
    intro first second before after
    rw [Span.stop] at before after
    omega
  apply scan.ordered.eq_of_mem_iff scan'.ordered
  intro span
  rw [scan.mem_iff, scan'.mem_iff]

theorem isLineScan_commentLines (openers : List Text) (text : Text) :
    IsLineScan openers text (commentLines openers text) where
  ordered := commentLines_ordered openers text
  mem_iff _ := mem_commentLines_iff_isCommentLine

/-- The comments of a language without blocks are its comment lines, none of which has a line feed
in it. -/
theorem spans_eq_iff_isLineScan (profile : Profile) (whole : profile.delimiters.blocks = [])
    (text : Text) (comments : List Span) :
    (spans profile text = comments ↔ IsLineScan profile.delimiters.lineOpeners text comments) ∧
      ∀ span ∈ spans profile text, '\n' ∉ span.text := by
  have scanned : spans profile text = commentLines profile.delimiters.lineOpeners text := by
    rw [spans, if_neg]
    rw [Delimiters.isDelimited_iff]
    exact not_not_intro whole
  rw [scanned]
  refine ⟨⟨?_, (isLineScan_commentLines _ text).unique⟩, ?_⟩
  · rintro rfl
    exact isLineScan_commentLines _ text
  · intro span member
    exact (mem_commentLines_iff_isCommentLine.mp member).feed_not_mem

/-- Lines before a comment count by their bytes, white space of more than one byte belongs to the
comment, and a return belongs to the ending even where the line feed is missing. -/
theorem isLineScan_python_indented :
    Profile.hash.delimiters.blocks = [] ∧
      IsLineScan Profile.hash.delimiters.lineOpeners "é\r\n\u3000#1\r\r\n\nx #\n\t#2\r".toList
        [⟨4, "\u3000#1\r".toList⟩, ⟨17, "\t#2".toList⟩] ∧
      ∀ span ∈ spans .hash "é\r\n\u3000#1\r\r\n\nx #\n\t#2\r".toList, '\n' ∉ span.text := by
  obtain ⟨scan, free⟩ := spans_eq_iff_isLineScan .hash (by decide)
    "é\r\n\u3000#1\r\r\n\nx #\n\t#2\r".toList [⟨4, "\u3000#1\r".toList⟩, ⟨17, "\t#2".toList⟩]
  exact ⟨by decide, scan.mp (by decide +kernel), free⟩

end TrackerLinks.Comment
