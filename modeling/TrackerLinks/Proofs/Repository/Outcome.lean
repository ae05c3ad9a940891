import TrackerLinks.Document
import TrackerLinks.Proofs.Machine.Follow

namespace TrackerLinks

variable {m : Type → Type} [Monad m] {host : Host Id} {path start root directory : Path}

namespace Host

/-- The host with the URLs of origins read in another way, which may have effects. -/
def reading (host : Host Id) (read : Path → m (Except Error Text)) : Host m where
  workingDirectory := pure host.workingDirectory
  status path := pure (host.status path)
  read path := pure (host.read path)
  tree path := pure (host.tree path)
  origin := read
  arrange table := pure (host.arrange table)
  isUnicode path := pure (host.isUnicode path)

/-- The path under the working directory. -/
def full (host : Host Id) (path : Path) : Path :=
  (Path.absolute? host.workingDirectory path).getD path

/-- The path leads to a directory. -/
def HasDirectory (host : Host Id) (path : Path) : Prop :=
  ∃ status, host.status path = .ok status ∧ status.isDirectory

/-- The marker in the directory leads to something. -/
def IsMarked (host : Host Id) (directory : Path) : Prop :=
  ∃ status, host.status (Path.join directory Repository.marker) = .ok status

/-- The search for the repository of a path starts in the path if it leads to a directory, and else
in the directory that it names its last name in, or here if it names none. -/
inductive StartsAt (host : Host Id) (path : Path) : Path → Prop
  | inside (isDirectory : host.HasDirectory (host.full path)) : StartsAt host path (host.full path)
  | above (noDirectory : ¬ host.HasDirectory (host.full path)) :
      StartsAt host path ((Path.parent? (host.full path)).getD ".".toList)

/-- Of `start` and the directories above it, `root` is the first one with a marker. -/
structure IsFirstMarked (host : Host Id) (start root : Path) : Prop where
  isMarked : host.IsMarked root
  first : ∃ inner outer, Path.ancestors start = inner ++ root :: outer ∧
    ∀ directory ∈ inner, ¬ host.IsMarked directory

theorem hasDirectory_iff : host.HasDirectory path ↔ Id.run (host.isDirectory path) = true := by
  simp only [HasDirectory, isDirectory, bind, pure, Id.run]
  cases host.status path with
  | error reason => simp
  | ok status =>
      constructor
      · rintro ⟨_, ⟨⟩, isDirectory⟩
        exact isDirectory
      · intro isDirectory
        exact ⟨status, rfl, isDirectory⟩

theorem isMarked_iff :
    host.IsMarked directory ↔
      (host.status (Path.join directory Repository.marker)).toBool = true := by
  rw [IsMarked]
  cases host.status (Path.join directory Repository.marker) with
  | error reason => simp [Except.toBool]
  | ok status => exact iff_of_true ⟨status, rfl⟩ rfl

theorem startsAt_iff :
    host.StartsAt path start ↔ Id.run (Repository.startDirectory host path) = start := by
  have starts : Id.run (Repository.startDirectory host path) =
      if Id.run (host.isDirectory (host.full path)) then host.full path
      else (Path.parent? (host.full path)).getD ".".toList := rfl
  rw [starts]
  by_cases isDirectory : host.HasDirectory (host.full path)
  · rw [if_pos (hasDirectory_iff.mp isDirectory)]
    constructor
    · rintro (_ | noDirectory)
      · rfl
      · exact absurd isDirectory noDirectory
    · rintro rfl
      exact .inside isDirectory
  · rw [if_neg (mt hasDirectory_iff.mpr isDirectory)]
    constructor
    · rintro (isDirectory' | _)
      · exact absurd isDirectory' isDirectory
      · rfl
    · rintro rfl
      exact .above isDirectory

/-- The first marked directory of a search, as it is computed. -/
def firstMarked? (host : Host Id) (start : Path) : Option Path :=
  (Path.ancestors start).find? fun directory =>
    (host.status (Path.join directory Repository.marker)).toBool

theorem isFirstMarked_iff : host.IsFirstMarked start root ↔ host.firstMarked? start = some root := by
  rw [firstMarked?, List.find?_eq_some_iff_append, ← isMarked_iff]
  simp only [Bool.not_eq_true', Bool.eq_false_iff, ne_eq, ← isMarked_iff]
  exact ⟨fun h => ⟨h.isMarked, h.first⟩, fun h => ⟨h.1, h.2⟩⟩

theorem firstMarked?_eq_none_iff :
    host.firstMarked? start = none ↔
      ∀ directory ∈ Path.ancestors start, ¬ host.IsMarked directory := by
  simp only [firstMarked?, List.find?_eq_none, isMarked_iff]

section Reading

variable [LawfulMonad m] (read : Path → m (Except Error Text))

theorem pathExists_reading (path : Path) :
    (host.reading read).pathExists path = pure (host.status path).toBool := by
  rw [pathExists, reading, pure_bind]

theorem isDirectory_reading (path : Path) :
    (host.reading read).isDirectory path = pure (Id.run (host.isDirectory path)) := by
  have asked : (host.reading read).status path = pure (host.status path) := rfl
  rw [isDirectory, asked, pure_bind]
  simp only [isDirectory, bind, pure, Id.run]
  cases host.status path <;> rfl

theorem startDirectory_reading (path : Path) :
    Repository.startDirectory (host.reading read) path =
      pure (Id.run (Repository.startDirectory host path)) := by
  have asked : (host.reading read).workingDirectory = pure host.workingDirectory := rfl
  simp only [Repository.startDirectory, asked, pure_bind, isDirectory_reading]
  simp only [bind, pure, Id.run]
  split <;> rfl

theorem rootAbove?_reading (start : Path) :
    Repository.rootAbove? (host.reading read) start = pure (host.firstMarked? start) := by
  simp only [Repository.rootAbove?, pathExists_reading]
  exact List.findM?_pure _ _

end Reading

end Host

theorem Machine.isMarked_host_iff {machine : Machine} :
    machine.host.IsMarked directory ↔
      ∃ place, machine.locate true (Path.join directory Repository.marker) = .ok place ∧
        (machine.tree.IsDirectoryAt place ∨
          ∃ content, machine.tree.get? place = some (.leaf (.file content))) := by
  have asked : machine.host.IsMarked directory ↔
      ∃ status, machine.status (Path.join directory Repository.marker) = .ok status := Iff.rfl
  rw [asked]
  constructor
  · rintro ⟨status, reached⟩
    rw [Machine.status] at reached
    cases node : machine.node true (Path.join directory Repository.marker) with
    | error reason =>
        rw [node] at reached
        cases reached
    | ok sub =>
        obtain ⟨place, located, found⟩ := Machine.node_eq_ok_iff.mp node
        refine ⟨place, located, ?_⟩
        cases sub with
        | directory entries => exact .inl (Tree.isDirectoryAt_iff.mpr ⟨entries, found⟩)
        | leaf value =>
            cases value with
            | file content => exact .inr ⟨content, found⟩
            | link target =>
                rw [node] at reached
                cases reached
  · rintro ⟨place, located, isDirectory | ⟨content, found⟩⟩
    · obtain ⟨entries, found⟩ := Tree.isDirectoryAt_iff.mp isDirectory
      exact ⟨_, by rw [Machine.status, Machine.node_eq_ok_iff.mpr ⟨place, located, found⟩]; rfl⟩
    · exact ⟨_, by rw [Machine.status, Machine.node_eq_ok_iff.mpr ⟨place, located, found⟩]; rfl⟩

namespace Repository

variable [LawfulMonad m] (read : Path → m (Except Error Text))

theorem ofPath_of_firstMarked?_eq_none (starts : host.StartsAt path start)
    (unmarked : host.firstMarked? start = none) :
    ofPath (host.reading read) path = pure (.error (.noRepositoryFound start)) := by
  rw [ofPath, Host.startDirectory_reading, Host.startsAt_iff.mp starts, pure_bind,
    Host.rootAbove?_reading, unmarked, pure_bind]

theorem ofPath_of_firstMarked?_eq_some (starts : host.StartsAt path start)
    (found : host.firstMarked? start = some root) :
    ofPath (host.reading read) path = atRoot (host.reading read) root := by
  rw [ofPath, Host.startDirectory_reading, Host.startsAt_iff.mp starts, pure_bind,
    Host.rootAbove?_reading, found, pure_bind]

/-- The search for the repository of a path reads the origin of the first marked directory, and of no
other, so that an origin that cannot be read is not made up for by one further up. A document has
links only where that origin names a repository. -/
theorem ofPath_outcome (host : Host Id) (path : Path) :
    (∃ start, host.StartsAt path start) ∧
    (∀ start, host.StartsAt path start →
      ((∃ root, host.IsFirstMarked start root) ∨
        ∀ directory ∈ Path.ancestors start, ¬ host.IsMarked directory) ∧
      ((∀ directory ∈ Path.ancestors start, ¬ host.IsMarked directory) →
        ofPath (host.reading read) path = pure (.error (.noRepositoryFound start))) ∧
      ∀ root, host.IsFirstMarked start root →
        (ofPath (host.reading read) path = do
          match ← read root with
          | .error error => return .error error
          | .ok url =>
              match ofRemoteUrl? url with
              | some repository => return .ok repository
              | none => return .error (.unrecognizedRemote (Text.trim url))) ∧
        ∀ path' start', host.StartsAt path' start' → host.IsFirstMarked start' root →
          ofPath (host.reading read) path' = ofPath (host.reading read) path) ∧
    (∀ language text, Document.links (host.reading read) ⟨language, path, text⟩ = do
      match ← ofPath (host.reading read) path with
      | .ok repository => return ⟨links language text repository, some repository⟩
      | .error _ => return ⟨[], none⟩) ∧
    ∀ (machine : Machine) (directory : Path), machine.host.IsMarked directory ↔
      ∃ place, machine.locate true (Path.join directory marker) = .ok place ∧
        (machine.tree.IsDirectoryAt place ∨
          ∃ content, machine.tree.get? place = some (.leaf (.file content))) := by
  refine ⟨⟨_, Host.startsAt_iff.mpr rfl⟩, ?search, ?document, ?machine⟩
  case search =>
    intro start starts
    refine ⟨?_, ?_, ?_⟩
    · cases found : host.firstMarked? start with
      | none => exact .inr (Host.firstMarked?_eq_none_iff.mp found)
      | some root => exact .inl ⟨root, Host.isFirstMarked_iff.mpr found⟩
    · intro unmarked
      exact ofPath_of_firstMarked?_eq_none read starts (Host.firstMarked?_eq_none_iff.mpr unmarked)
    · intro root first
      have reads {path start : Path} (starts : host.StartsAt path start)
          (first : host.IsFirstMarked start root) :
          ofPath (host.reading read) path = atRoot (host.reading read) root :=
        ofPath_of_firstMarked?_eq_some read starts (Host.isFirstMarked_iff.mp first)
      refine ⟨?_, ?_⟩
      · rw [reads starts first]
        rfl
      · intro path' start' starts' first'
        rw [reads starts' first', reads starts first]
  case document =>
    intro language text
    rw [Document.links, ofPath?, bind_assoc]
    congr 1
    funext outcome
    rw [pure_bind]
    cases outcome <;> rfl
  case machine =>
    intro machine directory
    exact machine.isMarked_host_iff

end Repository

/-- A repository in a repository, and in the inner one a link to nowhere in place of a marker. -/
def shadowed : Machine where
  tree := .directory
    [(".git".toList, .empty),
      ("p".toList, .directory
        [(".git".toList, .leaf (.file .empty)),
          ("q".toList, .directory
            [(".git".toList, .leaf (.link "gone".toList)), ("f.rs".toList, .leaf (.file .empty))])])]
  workingDirectory := ["p".toList]
  origin _ := .exited 1

/-- Cannot read any origin, and notes where it was asked to. -/
def refuse (root : Path) : StateM (List Path) (Except Error Text) := do
  modify (· ++ [root])
  return .error (.originUnreadable root "no such remote".toList)

theorem status_shadowed {path : Path} {place : Place} {content : ByteArray}
    (located : shadowed.locate true path = .ok place)
    (found : shadowed.tree.get? place = some (.leaf (.file content))) :
    shadowed.status path = .ok ⟨false, content.size⟩ := by
  rw [Machine.status, Machine.node_eq_ok_iff.mpr ⟨_, located, found⟩]
  rfl

theorem startsAt_shadowed : shadowed.host.StartsAt "q/f.rs".toList "/p/q".toList := by
  have full : shadowed.host.full "q/f.rs".toList = "/p/q/f.rs".toList := by decide
  have located : shadowed.locate true "/p/q/f.rs".toList =
      .ok ["p".toList, "q".toList, "f.rs".toList] :=
    Machine.locate_eq_ok_of_follow rfl (by decide) rfl nofun
  have noDirectory : ¬ shadowed.host.HasDirectory (shadowed.host.full "q/f.rs".toList) := by
    rintro ⟨status, reached, isDirectory⟩
    rw [full] at reached
    cases (status_shadowed located rfl).symm.trans reached
    cases isDirectory
  have starts := Host.StartsAt.above noDirectory
  rw [full] at starts
  exact starts

theorem isFirstMarked_shadowed : shadowed.host.IsFirstMarked "/p/q".toList "/p".toList := by
  have outer : shadowed.locate true "/p/.git".toList = .ok ["p".toList, ".git".toList] :=
    Machine.locate_eq_ok_of_follow rfl (by decide) rfl nofun
  have inner : shadowed.locate true "/p/q/.git".toList =
      Machine.follow shadowed.tree true (39 + 1) [] (["p".toList, "q".toList] ++ [".git".toList]) := rfl
  have enters :
      Machine.follow shadowed.tree true (39 + 1) [] (["p".toList, "q".toList] ++ [".git".toList]) =
        Machine.follow shadowed.tree true (39 + 1) ["p".toList, "q".toList] [".git".toList] :=
    Machine.follow_append (by decide) rfl nofun
  have gone : shadowed.status "/p/q/.git".toList = .error .notFound := by
    apply Machine.status_of_locate_eq_error
    rw [inner, enters, Machine.follow_link (by decide) (by decide) rfl]
    exact Machine.follow_absent (by decide) (by decide) (by decide) rfl
  refine ⟨⟨_, status_shadowed outer rfl⟩, ["/p/q".toList], ["/".toList], by decide, ?_⟩
  intro directory member
  rw [List.mem_singleton.mp member]
  rintro ⟨status, reached⟩
  cases gone.symm.trans reached

/-- Only the inner repository is asked for its origin, and the outer one does not stand in for it. -/
theorem ofPath_outcome_shadowed :
    shadowed.host.StartsAt "q/f.rs".toList "/p/q".toList ∧
      shadowed.host.IsFirstMarked "/p/q".toList "/p".toList ∧
      (Repository.ofPath (shadowed.host.reading refuse) "q/f.rs".toList).run [] =
        (.error (.originUnreadable "/p".toList "no such remote".toList), ["/p".toList]) := by
  obtain ⟨_, search, _⟩ := Repository.ofPath_outcome refuse shadowed.host "q/f.rs".toList
  obtain ⟨_, _, reads⟩ := search _ startsAt_shadowed
  refine ⟨startsAt_shadowed, isFirstMarked_shadowed, ?_⟩
  rw [(reads _ isFirstMarked_shadowed).1]
  rfl

end TrackerLinks
