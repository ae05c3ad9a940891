import TrackerLinks.Host

/-! A machine that is held in memory: a directory tree with links, and the origins of repositories. -/

namespace TrackerLinks

/-- A leaf of the tree: the bytes of a file, or the path that a link holds. -/
inductive Stored
  | file (content : ByteArray)
  | link (target : Path)

/-- A directory of a machine, by the names that lead to it from the root without links. -/
abbrev Place := List Name

structure Machine where
  tree : Tree Stored
  workingDirectory : Place
  origin : Place → OriginReading

/-- The names that a path is resolved by. A slash at the end asks for a directory. -/
def Path.steps (path : Path) : List Name :=
  (Text.split '/' path).filter (!·.isEmpty) ++ (if endsWithSlash path then [['.']] else [])

namespace Machine

def linkLimit : Nat :=
  40

def nameLimit : Nat :=
  255

def directorySize : Nat :=
  4096

def linkStart (place : Place) (target : Path) : Place :=
  if Path.isAbsolute target then [] else place

/-- Follows names from a place. A link at the very end is followed only if asked for. -/
def follow (tree : Tree Stored) (followLast : Bool) (links : Nat) (place : Place) :
    List Name → Except IoError Place
  | [] => .ok place
  | name :: rest =>
      match tree.get? place with
      | some (.directory entries) =>
          if name = ['.'] then follow tree followLast links place rest
          else if name = ['.', '.'] then follow tree followLast links place.dropLast rest
          else if nameLimit < Text.size name then .error .nameTooLong
          else
            match entries.lookup name with
            | none => .error .notFound
            | some (.leaf (.link target)) =>
                if rest.isEmpty && !followLast then .ok (place ++ [name])
                else
                  match links with
                  | 0 => .error .tooManyLinks
                  | links + 1 =>
                      follow tree followLast links (linkStart place target)
                        (Path.steps target ++ rest)
            | some _ => follow tree followLast links (place ++ [name]) rest
      | _ => .error .notADirectory
termination_by names => (links, names.length)

def start (machine : Machine) (path : Path) : Place :=
  if Path.isAbsolute path then [] else machine.workingDirectory

def locate (machine : Machine) (followLast : Bool) (path : Path) : Except IoError Place :=
  if path.elem '\x00' then .error .nulInPath
  else if path.isEmpty then .error .notFound
  else if Path.sizeLimit < Text.size path then .error .nameTooLong
  else follow machine.tree followLast linkLimit (machine.start path) (Path.steps path)

def node (machine : Machine) (followLast : Bool) (path : Path) :
    Except IoError (Tree Stored) := do
  match machine.tree.get? (← machine.locate followLast path) with
  | some tree => return tree
  | none => throw .notFound

def status (machine : Machine) (path : Path) : Except IoError Status := do
  match ← machine.node true path with
  | .directory _ => return ⟨true, directorySize⟩
  | .leaf (.file content) => return ⟨false, content.size⟩
  | .leaf (.link _) => throw .notFound

def read (machine : Machine) (path : Path) : Except IoError ByteArray := do
  match ← machine.node true path with
  | .directory _ => throw .isADirectory
  | .leaf (.file content) => return content
  | .leaf (.link _) => throw .notFound

def entry : Stored → Entry
  | .file _ => .file
  | .link _ => .other

/-- What lies below a path. A link counts as the directory that it leads to, if it does. -/
def treeAt (machine : Machine) (path : Path) : Except IoError (Tree Entry) := do
  match ← machine.node false path with
  | .leaf (.link _) =>
      match ← machine.node true path with
      | .directory entries => return ((Tree.directory entries).map entry).listed path
      | .leaf _ => return .leaf .other
  | tree => return (tree.map entry).listed path

def placePath (place : Place) : Path :=
  '/' :: Text.joined ['/'] place

def host (machine : Machine) : Host Id where
  workingDirectory := placePath machine.workingDirectory
  status := machine.status
  read := machine.read
  tree path := (machine.treeAt path).toOption
  origin path :=
    match machine.locate true path with
    | .ok place => (machine.origin place).outcome path
    | .error reason => (OriginReading.unavailable reason).outcome path
  arrange := id
  isUnicode _ := true

/-- The machine to someone whom it refuses what some of its files hold. -/
def guardedHost (machine : Machine) (refusal : Place → Option IoError) : Host Id :=
  { machine.host with
    read := fun path =>
      match machine.locate true path with
      | .ok place => ((refusal place).map .error).getD (machine.read path)
      | .error reason => .error reason }

/-- The place at which a new entry of this path stands, as far as it exists through links. -/
def destination (tree : Tree Stored) (links : Nat) (place : Place) : List Name → Place
  | [] => place
  | name :: rest =>
      if name = ['.'] then destination tree links place rest
      else if name = ['.', '.'] then destination tree links place.dropLast rest
      else
        match tree.get? (place ++ [name]) with
        | some (.leaf (.link target)) =>
            match rest, links with
            | _ :: _, links + 1 =>
                destination tree links (linkStart place target) (Path.steps target ++ rest)
            | _, _ => place ++ [name]
        | _ => destination tree links (place ++ [name]) rest
termination_by names => (links, names.length)

def destinationOf (machine : Machine) (path : Path) : Place :=
  destination machine.tree linkLimit (machine.start path) (Path.steps path)

def put (machine : Machine) (path : Path) (leaf : Stored) : Machine :=
  { machine with tree := Tree.put (.leaf leaf) (machine.destinationOf path) machine.tree }

def makeDirectory (machine : Machine) (path : Path) : Machine :=
  let place := machine.destinationOf path
  match machine.tree.get? place with
  | some (.directory _) => machine
  | _ => { machine with tree := Tree.put .empty place machine.tree }

def remove (machine : Machine) (path : Path) : Machine :=
  { machine with tree := Tree.remove (machine.destinationOf path) machine.tree }

end Machine

end TrackerLinks
