import TrackerLinks.Text.Basic

/-! A line ends with a line feed, and one carriage return before it belongs to the ending. -/

namespace TrackerLinks

/-- A line with the byte offset at which it starts; its body leaves the line feed out. -/
structure Line where
  start : Nat
  body : Text
  isTerminated : Bool
  deriving DecidableEq

namespace Text

def dropReturn (body : Text) : Text :=
  dropSuffix ['\r'] body

def linesFrom (start : Nat) : List Text → List Line
  | [] => []
  | [body] => [⟨start, body, false⟩]
  | body :: more => ⟨start, body, true⟩ :: linesFrom (start + size body + 1) more

/-- The lines of a text, the last of which is never terminated and may be empty. -/
def lines (text : Text) : List Line :=
  linesFrom 0 (split '\n' text)

/-- The lines of a text that have an end, without it. -/
def endedLines (text : Text) : List Text :=
  (split '\n' text).dropLast.map dropReturn

end Text

def Line.content (line : Line) : Text :=
  if line.isTerminated then Text.dropReturn line.body else line.body

end TrackerLinks
