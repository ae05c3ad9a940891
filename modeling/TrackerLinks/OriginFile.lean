import TrackerLinks.Host
import TrackerLinks.Text.Blank

/-! The origin of a repository as its settings file records it: the last `url` under
`[remote "origin"]`. -/

namespace TrackerLinks.OriginFile

def header : Text :=
  "[remote \"origin\"]".toList

def url? (line : Text) : Option Text :=
  if Text.trim (line.takeWhile (· ≠ '=')) = "url".toList then
    some (Text.trim ((line.dropWhile (· ≠ '=')).drop 1))
  else none

/-- The last URL among lines, of which those before the first header belong to the origin if
`inOrigin`. -/
def lastUrl? (inOrigin : Bool) (found : Option Text) : List Text → Option Text
  | [] => found
  | line :: more =>
      if line.head? = some '[' then lastUrl? (line = header) found more
      else if inOrigin then lastUrl? inOrigin ((url? line).orElse fun _ => found) more
      else lastUrl? inOrigin found more

def reading (content : Text) : OriginReading :=
  match lastUrl? false none ((Text.split '\n' content).map Text.trim) with
  | some url => .printed (String.ofList url).toUTF8
  | none => .exited 1

end TrackerLinks.OriginFile
