import TrackerLinks.Text.Basic

/-! Paths as they are spelled. Nothing here looks at a file system, and `..` is a name like any other. -/

namespace TrackerLinks

abbrev Path := Text

abbrev Name := Text

namespace Path

def isAbsolute (path : Path) : Bool :=
  path.head? = some '/'

def endsWithSlash (path : Path) : Bool :=
  path.getLast? = some '/'

def sizeLimit : Nat :=
  4095

/-- What a path starts with that no name follows from: the root, or a leading `.`. -/
def anchor : Path → Text
  | '/' :: _ => ['/']
  | ['.'] => ['.']
  | '.' :: '/' :: _ => ['.']
  | _ => []

def isTrivial (segment : Name) : Bool :=
  segment.isEmpty || segment = ['.']

def segments (path : Path) : List Name :=
  Text.split '/' (path.drop (anchor path).length)

def names (path : Path) : List Name :=
  (segments path).filter (!isTrivial ·)

def join (base path : Path) : Path :=
  if isAbsolute path then path
  else if base.isEmpty || endsWithSlash base then base ++ path
  else base ++ '/' :: path

/-- The paths above the given segments, which stand innermost first. Each keeps its spelling. -/
def above (anchor : Text) : List Name → List Path
  | [] => if anchor = ['.'] then [[]] else []
  | segment :: outer =>
      if isTrivial segment then above anchor outer
      else
        (anchor ++ Text.joined ['/'] (outer.dropWhile isTrivial).reverse) ::
          above anchor outer

def ancestors (path : Path) : List Path :=
  path :: above (anchor path) (segments path).reverse

def parent? (path : Path) : Option Path :=
  (ancestors path)[1]?

/-- The last name of a path, unless it is `..`. -/
def fileName? (path : Path) : Option Name := do
  let name ← (names path).getLast?
  guard (name ≠ "..".toList)
  return name

/-- What follows the last dot of a name, unless the name has no other character before it. -/
def extensionOf? (name : Name) : Option Text :=
  match name.reverse.dropWhile (· ≠ '.') with
  | _ :: _ :: _ => some (name.reverse.takeWhile (· ≠ '.')).reverse
  | _ => none

def extension? (path : Path) : Option Text :=
  (fileName? path).bind extensionOf?

/-- The path under the working directory, without empty segments and `.`, which keeps `..` and a
slash at its end. There is none for the empty path. -/
def absolute? (workingDirectory path : Path) : Option Path :=
  if path.isEmpty then none
  else
    let base :=
      if !isAbsolute path then workingDirectory
      else if "//".toList.isPrefixOf path && !"///".toList.isPrefixOf path then "//".toList
      else "/".toList
    let full := (names path).foldl join base
    some (if endsWithSlash path then join full [] else full)

end Path

end TrackerLinks
