import TrackerLinks.Host
import TrackerLinks.Settings

namespace TrackerLinks

def isSkippedName (name : Name) : Bool :=
  name = ".git".toList || name = "node_modules".toList || name = "target".toList

def Name.le (name other : Name) : Bool :=
  !List.lex other name (· < ·)

namespace Tree

mutual

/-- The files of a tree as chains of names, each directory in the order of its names. -/
def files : Tree Entry → List (List Name)
  | leaf .file => [[]]
  | leaf .other => []
  | directory entries =>
      ((branches entries).mergeSort (fun a b => Name.le a.1 b.1)).flatMap fun branch =>
        branch.2.map (branch.1 :: ·)

/-- The files of each entry, with none in a skipped directory. -/
def branches : List (Name × Tree Entry) → List (Name × List (List Name))
  | [] => []
  | (name, tree) :: more =>
      (name, if tree.isDirectory && isSkippedName name then [] else tree.files) :: branches more

end

end Tree

def Path.below (root : Path) (names : List Name) : Path :=
  names.foldl Path.join root

/-- The files below `root` that the settings allow, by the names that lead to them from there. -/
def walkNames [Monad m] (host : Host m) (settings : Settings) (root : Path) :
    m (List (List Name)) := do
  match ← host.tree root with
  | none => return []
  | some tree =>
      return tree.files.filter fun names => settings.allows (Text.joined ['/'] names)

def walk [Monad m] (host : Host m) (settings : Settings) (root : Path) : m (List Path) := do
  return (← walkNames host settings root).map root.below

end TrackerLinks
