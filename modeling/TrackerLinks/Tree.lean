import TrackerLinks.Path

/-! Directory trees over leaves of any kind. A directory lists each name once, in no set order. -/

namespace TrackerLinks

inductive Tree (α : Type)
  | leaf (value : α)
  | directory (entries : List (Name × Tree α))

namespace Tree

def empty : Tree α :=
  .directory []

def isDirectory : Tree α → Bool
  | leaf _ => false
  | directory _ => true

mutual

def map (f : α → β) : Tree α → Tree β
  | leaf value => leaf (f value)
  | directory entries => directory (mapEntries f entries)

def mapEntries (f : α → β) : List (Name × Tree α) → List (Name × Tree β)
  | [] => []
  | (name, tree) :: more => (name, tree.map f) :: mapEntries f more

end

mutual

/-- What a listing from a path shows of the tree: nothing of a directory whose path is too long. -/
def listed (path : Path) : Tree α → Tree α
  | leaf value => leaf value
  | directory entries =>
      if Path.sizeLimit < Text.size path then empty else directory (listedEntries path entries)

def listedEntries (path : Path) : List (Name × Tree α) → List (Name × Tree α)
  | [] => []
  | (name, tree) :: more => (name, tree.listed (path.join name)) :: listedEntries path more

end

def get? : Tree α → List Name → Option (Tree α)
  | tree, [] => some tree
  | leaf _, _ :: _ => none
  | directory entries, name :: rest => (entries.lookup name).bind (·.get? rest)

def entriesAt (tree : Tree α) : List (Name × Tree α) :=
  match tree with
  | leaf _ => []
  | directory entries => entries

/-- The tree with another at the end of a chain of names, whose directories are made as needed. -/
def put (node : Tree α) : List Name → Tree α → Tree α
  | [], _ => node
  | name :: rest, tree =>
      let inner := (tree.entriesAt.lookup name).getD empty
      directory ((name, put node rest inner) :: tree.entriesAt.filter (·.1 ≠ name))

def remove : List Name → Tree α → Tree α
  | [], tree => tree
  | name :: rest, tree =>
      let others := tree.entriesAt.filter (·.1 ≠ name)
      match rest, tree.entriesAt.lookup name with
      | _ :: _, some inner => directory ((name, remove rest inner) :: others)
      | _, _ => if tree.isDirectory then directory others else tree

end Tree

end TrackerLinks
