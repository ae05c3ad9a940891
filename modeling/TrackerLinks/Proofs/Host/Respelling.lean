import TrackerLinks.Document
import TrackerLinks.Proofs.Machine.Follow

namespace TrackerLinks

variable {path path' : Path}

namespace Path

/-- The path with `./` in front of it. -/
def dotted (path : Path) : Path :=
  '.' :: '/' :: path

theorem dotted_injective : Function.Injective dotted := by
  intro path path' same
  cases same
  rfl

theorem size_dotted (path : Path) : Text.size (dotted path) = Text.size path + 2 := by
  rw [dotted, Text.size_cons, Text.size_cons, ← Nat.add_assoc, Nat.add_comm]
  rfl

theorem names_dotted (path : Path) : names (dotted path) = names path := by
  rw [names_eq_filter_split, names_eq_filter_split, dotted, split_dot_slash]
  rfl

theorem endsWithSlash_dotted (nonempty : path ≠ []) :
    endsWithSlash (dotted path) = endsWithSlash path := by
  obtain ⟨c, path, rfl⟩ := List.exists_cons_of_ne_nil nonempty
  rw [endsWithSlash, endsWithSlash, dotted, List.getLast?_cons_cons, List.getLast?_cons_cons]

theorem steps_dotted (nonempty : path ≠ []) : steps (dotted path) = ['.'] :: steps path := by
  rw [steps, steps, endsWithSlash_dotted nonempty, dotted, split_dot_slash]
  rfl

theorem absolute?_dotted (workingDirectory : Path) (nonempty : path ≠ [])
    (relative : isAbsolute path = false) :
    absolute? workingDirectory (dotted path) = absolute? workingDirectory path := by
  have filled : path.isEmpty = false := by simpa using nonempty
  have filled' : (dotted path).isEmpty = false := rfl
  have relative' : isAbsolute (dotted path) = false := rfl
  simp only [absolute?, filled, filled', relative, relative', names_dotted,
    endsWithSlash_dotted nonempty, Bool.not_false, if_true]

end Path

/-- What the program relies on of the file system that it runs on: a path that is too long leads
nowhere, `./` in front of a path leads to the same place, and directories list names. -/
structure Host.IsFileSystem (host : Host Id) : Prop where
  size_le_of_status {path : Path} {status : Status} :
    host.status path = .ok status → Text.size path ≤ Path.sizeLimit
  status_dotted {path : Path} : path ≠ [] → Path.isAbsolute path = false →
    Text.size (Path.dotted path) ≤ Path.sizeLimit →
    host.status (Path.dotted path) = host.status path
  read_dotted {path : Path} : path ≠ [] → Path.isAbsolute path = false →
    Text.size (Path.dotted path) ≤ Path.sizeLimit →
    host.read (Path.dotted path) = host.read path
  isDirectory_here {tree : Tree Entry} : host.tree ['.'] = some tree → tree.isDirectory
  allNames {path : Path} {tree : Tree Entry} :
    host.tree path = some tree → tree.AllNames Name.IsStep

namespace Machine

theorem locate_dotted (machine : Machine) (followLast : Bool) (nonempty : path ≠ [])
    (relative : Path.isAbsolute path = false)
    (fits : Text.size (Path.dotted path) ≤ Path.sizeLimit) :
    machine.locate followLast (Path.dotted path) = machine.locate followLast path := by
  have longer := Path.size_dotted path
  have nul : (Path.dotted path).elem '\x00' = path.elem '\x00' := rfl
  have filled : path.isEmpty = false := by simpa using nonempty
  have filled' : (Path.dotted path).isEmpty = false := rfl
  have start : machine.start (Path.dotted path) = machine.start path := by
    rw [Machine.start, Machine.start, relative]
    rfl
  have short : ¬ Path.sizeLimit < Text.size path := by omega
  have short' : ¬ Path.sizeLimit < Text.size (Path.dotted path) := Nat.not_lt.mpr fits
  obtain ⟨name, rest, steps⟩ :=
    List.exists_cons_of_ne_nil (Path.steps_ne_nil nonempty)
  simp only [locate, nul, filled, filled', short, short', start, Path.steps_dotted nonempty, steps,
    follow_dot]

theorem node_dotted (machine : Machine) (followLast : Bool) (nonempty : path ≠ [])
    (relative : Path.isAbsolute path = false)
    (fits : Text.size (Path.dotted path) ≤ Path.sizeLimit) :
    machine.node followLast (Path.dotted path) = machine.node followLast path := by
  rw [node, node, locate_dotted machine followLast nonempty relative fits]

theorem size_le_of_locate {machine : Machine} {followLast : Bool} {place : Place}
    (found : machine.locate followLast path = .ok place) : Text.size path ≤ Path.sizeLimit :=
  (locate_eq_ok_iff.mp found).1.2.2

theorem size_le_of_status {machine : Machine} {status : Status}
    (found : machine.status path = .ok status) : Text.size path ≤ Path.sizeLimit := by
  cases sub : machine.node true path with
  | error reason =>
      rw [Machine.status, sub] at found
      cases found
  | ok tree =>
      obtain ⟨place, located, _⟩ := node_eq_ok_iff.mp sub
      exact size_le_of_locate located

theorem treeAt_of_host {machine : Machine} {tree : Tree Entry}
    (found : machine.host.tree path = some tree) : machine.treeAt path = .ok tree := by
  change (machine.treeAt path).toOption = some tree at found
  cases listed : machine.treeAt path with
  | error reason =>
      rw [listed] at found
      cases found
  | ok below =>
      rw [listed] at found
      cases found
      rfl

/-- What lies below a path is cut out of the tree of the machine, or it is a link to a leaf. -/
theorem treeAt_cases {machine : Machine} {listed : Tree Entry}
    (found : machine.treeAt path = .ok listed) :
    (∃ followLast sub, machine.node followLast path = .ok sub ∧
      listed = (sub.map entry).listed path) ∨ listed = .leaf .other := by
  rw [treeAt] at found
  cases last : machine.node false path with
  | error reason =>
      rw [last] at found
      cases found
  | ok sub =>
      rw [last] at found
      cases sub with
      | directory entries =>
          cases found
          exact .inl ⟨_, _, last, rfl⟩
      | leaf value =>
          cases value with
          | file content =>
              cases found
              exact .inl ⟨_, _, last, rfl⟩
          | link target =>
              cases led : machine.node true path with
              | error reason =>
                  simp only [led, bind, Except.bind] at found
                  cases found
              | ok sub =>
                  simp only [led, bind, Except.bind] at found
                  cases sub with
                  | directory entries =>
                      cases found
                      exact .inl ⟨_, _, led, rfl⟩
                  | leaf value =>
                      cases found
                      exact .inr rfl

theorem allNames_of_treeAt {machine : Machine} {listed : Tree Entry} {p : Name → Prop}
    (named : machine.tree.AllNames p) (found : machine.treeAt path = .ok listed) :
    listed.AllNames p := by
  rcases treeAt_cases found with ⟨followLast, sub, reached, rfl⟩ | rfl
  · obtain ⟨place, _, at_place⟩ := node_eq_ok_iff.mp reached
    exact Tree.all_listed path _ (Tree.all_map entry sub (named.of_get? at_place).2)
  · trivial

/-- The working directory is a directory, or nothing leads anywhere from it. -/
theorem isDirectory_of_treeAt_here {machine : Machine} {listed : Tree Entry}
    (found : machine.treeAt ['.'] = .ok listed) : listed.isDirectory := by
  rw [treeAt] at found
  cases here : machine.node false ['.'] with
  | error reason =>
      rw [here] at found
      cases found
  | ok sub =>
      obtain ⟨place, located, at_place⟩ := node_eq_ok_iff.mp here
      have followed : follow machine.tree false linkLimit machine.workingDirectory [['.']] =
          .ok place := located
      rw [follow] at followed
      split at followed
      · rename_i entries directory
        rw [if_pos rfl, follow] at followed
        cases followed
        rw [directory] at at_place
        cases at_place
        rw [here] at found
        cases found
        rfl
      · cases followed

/-- A machine whose names are names is a file system. -/
theorem isFileSystem_host {machine : Machine} (named : machine.tree.AllNames Name.IsStep) :
    machine.host.IsFileSystem where
  size_le_of_status := size_le_of_status
  status_dotted nonempty relative fits := by
    change machine.status _ = machine.status _
    rw [Machine.status, Machine.status, node_dotted machine true nonempty relative fits]
  read_dotted nonempty relative fits := by
    change machine.read _ = machine.read _
    rw [Machine.read, Machine.read, node_dotted machine true nonempty relative fits]
  isDirectory_here found := isDirectory_of_treeAt_here (treeAt_of_host found)
  allNames found := allNames_of_treeAt named (treeAt_of_host found)

end Machine

/-- Two paths that the program cannot tell apart on the host, but for their spelling. -/
structure Host.SameFile (host : Host Id) (path path' : Path) : Prop where
  status_eq : host.status path = host.status path'
  read_eq : host.read path = host.read path'
  names_eq : Path.names path = Path.names path'
  absolute_eq : (Path.absolute? host.workingDirectory path).getD path =
    (Path.absolute? host.workingDirectory path').getD path'

theorem Host.IsFileSystem.sameFile_dotted {host : Host Id} (fileSystem : host.IsFileSystem)
    (nonempty : path ≠ []) (relative : Path.isAbsolute path = false)
    (fits : Text.size (Path.dotted path) ≤ Path.sizeLimit) :
    host.SameFile (Path.dotted path) path where
  status_eq := fileSystem.status_dotted nonempty relative fits
  read_eq := fileSystem.read_dotted nonempty relative fits
  names_eq := Path.names_dotted path
  absolute_eq := by
    rw [Path.absolute?_dotted _ nonempty relative]
    have filled : path.isEmpty = false := by simpa using nonempty
    rw [Path.absolute?, filled]
    rfl

theorem Document.path_eq_of_load {host : Host Id} {settings : Settings} {language? : Option Text}
    {document : Document} (loaded : Document.load host settings path language? = .ok document) :
    document.path = path := by
  simp only [Document.load, bind, pure] at loaded
  split at loaded
  · cases loaded
  · cases loaded
  split at loaded
  · cases loaded
  split at loaded
  · cases loaded
  · cases loaded
    rfl

namespace Host.SameFile

variable {host : Host Id}

theorem ofPath_eq (same : host.SameFile path path') :
    Repository.ofPath host path = Repository.ofPath host path' := by
  have start : Repository.startDirectory host path = Repository.startDirectory host path' := by
    have full := same.absolute_eq
    simp only [Repository.startDirectory, bind, pure] at full ⊢
    rw [full]
  rw [Repository.ofPath, Repository.ofPath, start]

theorem language_eq (same : host.SameFile path path') (overrides : List (Text × Text)) :
    Language.ofPath overrides path = Language.ofPath overrides path' := by
  have fileName : Path.fileName? path = Path.fileName? path' := by
    rw [Path.fileName?, Path.fileName?, same.names_eq]
  rw [Language.ofPath, Language.ofPath, Path.extension?, Path.extension?, fileName]

theorem readText_eq (same : host.SameFile path path') :
    host.readText path = host.readText path' := by
  rw [Host.readText, Host.readText, same.read_eq]

theorem load_eq (same : host.SameFile path path') (settings : Settings) (language? : Option Text) :
    (Id.run (Document.load host settings path language?)).toOption =
      (Id.run (Document.load host settings path' language?)).toOption.map fun document =>
        { document with path := path } := by
  simp only [Document.load, same.status_eq, same.readText_eq, same.language_eq, bind, pure, Id.run]
  split
  · rfl
  · rfl
  · split
    · rfl
    · split <;> rfl

theorem links_eq (same : host.SameFile path path') (language text : Text) :
    Document.links host ⟨language, path, text⟩ = Document.links host ⟨language, path', text⟩ := by
  rw [Document.links, Document.links, Repository.ofPath?, Repository.ofPath?, same.ofPath_eq]

end Host.SameFile

end TrackerLinks
