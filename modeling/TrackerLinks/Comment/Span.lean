import TrackerLinks.Comment.Profile
import TrackerLinks.Text.Blank
import TrackerLinks.Text.Lines

namespace TrackerLinks.Comment

/-- A comment, its delimiters included, with its byte offset in the document. -/
structure Span where
  start : Nat
  text : Text
  deriving DecidableEq

def Span.stop (span : Span) : Nat :=
  span.start + Text.size span.text

def isLineBreak (c : Char) : Bool :=
  c = '\r' || c = '\n'

/-- How many characters the comment takes that `marker` opens at the head of `text`. -/
def Marker.extent (text : Text) : Marker → Nat
  | .line opener =>
      opener.length + ((text.drop opener.length).takeWhile (!isLineBreak ·)).length
  | .block opener closer =>
      match Text.index? closer (text.drop opener.length) with
      | some inside => opener.length + inside + closer.length
      | none => max opener.length text.length

theorem Marker.opener_length_le_extent (text : Text) (marker : Marker) :
    marker.opener.length ≤ marker.extent text := by
  cases marker with
  | line opener => exact Nat.le_add_right _ _
  | block opener closer =>
      simp only [Marker.extent, Marker.opener]
      split
      · omega
      · exact Nat.le_max_left _ _

/-- The comments of a text that starts at `offset`, delimiter by delimiter from the left. -/
def delimitedFrom (delimiters : Delimiters) (offset : Nat) : Text → List Span
  | [] => []
  | c :: rest =>
      match _found : delimiters.markerAt? (c :: rest) with
      | none => delimitedFrom delimiters (offset + c.utf8Size) rest
      | some marker =>
          let comment := (c :: rest).take (marker.extent (c :: rest))
          ⟨offset, comment⟩ ::
            delimitedFrom delimiters (offset + Text.size comment)
              ((c :: rest).drop (marker.extent (c :: rest)))
termination_by text => text.length
decreasing_by
  · simp
  · have opened := List.length_pos_iff.mpr (Delimiters.opener_ne_nil_of_markerAt? _found)
    have covered := marker.opener_length_le_extent (c :: rest)
    simp only [List.length_drop, List.length_cons]
    omega

theorem delimitedFrom_of_markerAt?_eq_none {delimiters : Delimiters} {c : Char} {rest : Text}
    (offset : Nat) (h : delimiters.markerAt? (c :: rest) = none) :
    delimitedFrom delimiters offset (c :: rest) =
      delimitedFrom delimiters (offset + c.utf8Size) rest := by
  rw [delimitedFrom]
  split
  · rfl
  · simp_all

theorem delimitedFrom_of_markerAt?_eq_some {delimiters : Delimiters} {c : Char} {rest : Text}
    {marker : Marker} (offset : Nat) (h : delimiters.markerAt? (c :: rest) = some marker) :
    delimitedFrom delimiters offset (c :: rest) =
      ⟨offset, (c :: rest).take (marker.extent (c :: rest))⟩ ::
        delimitedFrom delimiters
          (offset + Text.size ((c :: rest).take (marker.extent (c :: rest))))
          ((c :: rest).drop (marker.extent (c :: rest))) := by
  rw [delimitedFrom]
  split
  · simp_all
  · simp_all

/-- A line is a comment when it starts, after white space, with one of the openers. -/
def opensLine (openers : List Text) (content : Text) : Bool :=
  openers.any (·.isPrefixOf (Text.trimStart content))

def commentLines (openers : List Text) (text : Text) : List Span :=
  (Text.lines text).filterMap fun line =>
    let content := Text.dropReturn line.body
    if opensLine openers content then some ⟨line.start, content⟩ else none

def spans (profile : Profile) (text : Text) : List Span :=
  if profile.delimiters.isDelimited then delimitedFrom profile.delimiters 0 text
  else commentLines profile.delimiters.lineOpeners text

def spansIn (language text : Text) : List Span :=
  spans (Profile.ofLanguage language) text

end TrackerLinks.Comment
