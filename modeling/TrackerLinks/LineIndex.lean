import TrackerLinks.Position

namespace TrackerLinks

/-- The start of a line: its offset, and the text from there on. -/
structure LineStart where
  offset : Nat
  rest : Text

/-- A text with the starts of its lines in a table, in which the line of an offset is looked up. -/
structure LineIndex where
  text : Text
  size : Nat
  starts : Array LineStart

/-- The first bytes of a text, if they end between two characters. -/
def Text.front? (bytes : Nat) : Text → Option Text
  | [] => if bytes = 0 then some [] else none
  | c :: rest =>
      if bytes = 0 then some []
      else if bytes < c.utf8Size then none
      else (front? (bytes - c.utf8Size) rest).map (c :: ·)

namespace LineIndex

def addStarts (starts : Array LineStart) (offset : Nat) : Text → Array LineStart
  | [] => starts
  | c :: rest =>
      let next := offset + c.utf8Size
      addStarts (if c = '\n' then starts.push ⟨next, rest⟩ else starts) next rest

def ofText (text : Text) : LineIndex where
  text := text
  size := Text.size text
  starts := addStarts #[⟨0, text⟩] 0 text

variable (index : LineIndex)

def startOf (line : Nat) : LineStart :=
  index.starts[line]?.getD ⟨0, index.text⟩

/-- The last of `count` lines from `base` on that starts no later than the offset, if `base` does. -/
def bisect (offset base count : Nat) : Nat :=
  if 1 < count then
    let half := count / 2
    let middle := base + half
    bisect offset (if offset < (index.startOf middle).offset then base else middle) (count - half)
  else base
termination_by count

/-- The line that starts at an offset or, failing that, how many lines start before it. -/
def search (offset : Nat) : Except Nat Nat :=
  if index.starts.isEmpty then .error 0
  else
    let line := index.bisect offset 0 index.starts.size
    match compare (index.startOf line).offset offset with
    | .eq => .ok line
    | .lt => .error (line + 1)
    | .gt => .error line

def lineAt (offset : Nat) : Nat :=
  match index.search offset with
  | .ok line => line
  | .error next => next - 1

def positionAt (offset : Nat) : Position :=
  let offset := min offset index.size
  let line := index.lineAt offset
  let start := index.startOf line
  ⟨line, ((Text.front? (offset - start.offset) start.rest).map Text.units).getD 0⟩

def range (start stop : Nat) : Range :=
  ⟨index.positionAt start, index.positionAt stop⟩

def line? (line : Nat) : Option Text := do
  let start ← index.starts[line]?
  let stop := (index.starts[line + 1]?.map (·.offset)).getD index.size
  Text.front? (stop - start.offset) start.rest

/-- The offset of a position, if the line exists and has that column outside its ending and not
between the halves of a surrogate pair. -/
def offsetAt? (p : Position) : Option Nat := do
  let line ← index.line? p.line
  let content := match Text.dropSuffix? ['\n'] line with
    | some body => Text.dropReturn body
    | none => line
  Text.columnFrom (index.startOf p.line).offset p.character content

end LineIndex

end TrackerLinks
