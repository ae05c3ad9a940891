import Mathlib.Data.List.Nodup
import TrackerLinks.Proofs.Host.Listing
import TrackerLinks.Proofs.Text.ByteOrder

namespace TrackerLinks

variable {host : Host Id} {settings : Settings} {root : Path} {tree : Tree Entry}
  {names : List Name}

theorem Settings.allows_iff {path : Text} :
    settings.allows path = true ↔
      (settings.included = [] ∨ ∃ start ∈ settings.included, start <+: path) ∧
        ∀ start ∈ settings.excluded, ¬ start <+: path := by
  simp [Settings.allows]

/-- The walk visits the file that the names lead to: they lead through no skipped directory, and the
settings allow the relative path that they spell. -/
structure IsVisited (tree : Tree Entry) (settings : Settings) (names : List Name) : Prop where
  isFile : tree.get? names = some (.leaf .file)
  unskipped : ∀ name ∈ names.dropLast,
    name ∉ [".git".toList, "node_modules".toList, "target".toList]
  included : settings.included = [] ∨
    ∃ start ∈ settings.included, start <+: Text.joined ['/'] names
  unexcluded : ∀ start ∈ settings.excluded, ¬ start <+: Text.joined ['/'] names

theorem isSkippedName_eq_false_iff {name : Name} :
    isSkippedName name = false ↔
      name ∉ [".git".toList, "node_modules".toList, "target".toList] := by
  simp only [isSkippedName, Bool.or_eq_false_iff, decide_eq_false_iff_not, List.mem_cons,
    List.not_mem_nil, or_false, not_or, and_assoc]

theorem isVisited_iff (listing : tree.IsListing) :
    IsVisited tree settings names ↔
      names ∈ tree.files ∧ settings.allows (Text.joined ['/'] names) = true := by
  rw [Tree.mem_files_iff listing, Settings.allows_iff]
  simp only [isSkippedName_eq_false_iff]
  exact ⟨fun ⟨isFile, unskipped, included, unexcluded⟩ =>
      ⟨⟨isFile, unskipped⟩, included, unexcluded⟩,
    fun ⟨⟨isFile, unskipped⟩, included, unexcluded⟩ =>
      ⟨isFile, unskipped, included, unexcluded⟩⟩

theorem walkNames_eq_filter (found : host.tree root = some tree) :
    Id.run (walkNames host settings root) =
      tree.files.filter fun names => settings.allows (Text.joined ['/'] names) := by
  simp only [walkNames, found, bind, pure, Id.run]

/-- A walk visits exactly the files that `IsVisited` names, each once, in the order of the bytes of
their names one by one. The order in which directories list their entries does not matter. Below a
directory of a machine the files are those that no link leads through. -/
theorem walk_eq_visited (settings : Settings) (found : host.tree root = some tree)
    (isDirectory : tree.isDirectory) (listing : tree.IsListing) :
    ∃ visited : List (List Name),
      walk host settings root =
        visited.map (fun names => root.join (Text.joined ['/'] names)) ∧
      (∀ names, names ∈ visited ↔ IsVisited tree settings names) ∧
      (Id.run (walk host settings root)).Nodup ∧
      visited.Pairwise (fun names names' => names.map Text.bytes < names'.map Text.bytes) ∧
      (∀ (host' : Host Id) (tree' : Tree Entry), host'.tree root = some tree' →
        tree.Reordered tree' → walk host' settings root = walk host settings root) ∧
      ∀ machine : Machine, machine.tree.AllNames Name.IsStep → machine.host.tree root = some tree →
        ∃ place, machine.locate true root = .ok place ∧
          ∀ names, tree.get? names = some (.leaf .file) ↔
            (∃ content, machine.tree.get? (place ++ names) = some (.leaf (.file content))) ∧
              Text.size (root.below names.dropLast) ≤ Path.sizeLimit := by
  have walked : walk host settings root =
      (Id.run (walkNames host settings root)).map root.below := rfl
  have visited_iff (names : List Name) : names ∈ Id.run (walkNames host settings root) ↔
      IsVisited tree settings names := by
    rw [walkNames_eq_filter found, List.mem_filter, isVisited_iff listing]
  have isStep {names : List Name} (visited : names ∈ Id.run (walkNames host settings root)) :
      ∀ name ∈ names, Name.IsStep name :=
    listing.isStep ((visited_iff names).mp visited).isFile
  have ordered : (Id.run (walkNames host settings root)).Pairwise (· < ·) := by
    rw [walkNames_eq_filter found]
    exact (Tree.files_ordered listing).filter _
  refine ⟨Id.run (walkNames host settings root), ?paths, visited_iff, ?once, ?order, ?reordered,
    ?machine⟩
  case paths =>
    rw [walked]
    apply List.map_congr_left
    intro names visited
    refine Path.below_eq_join ?_ (isStep visited)
    rintro rfl
    cases tree with
    | leaf value => cases isDirectory
    | directory entries => cases ((visited_iff []).mp visited).isFile
  case once =>
    rw [walked]
    refine List.Nodup.map_on ?_ ordered.nodup
    intro names visited names' visited' same
    -- The names can be read back from the path.
    have parts := congrArg Path.parts same
    rw [Path.parts_below (isStep visited), Path.parts_below (isStep visited')] at parts
    exact List.append_cancel_left parts
  case order => exact ordered.imp fun lower => List.map_lt (fun _ _ => Text.bytes_lt_bytes) lower
  case reordered =>
    intro host' tree' found' reordered
    have same : Id.run (walkNames host' settings root) = Id.run (walkNames host settings root) := by
      rw [walkNames_eq_filter found, walkNames_eq_filter found', reordered.files_eq listing]
    rw [walked, ← same]
    rfl
  case machine =>
    intro machine named found
    exact Machine.exists_place_of_host_tree named found isDirectory

/-- A directory that bears the name of a skipped one, with a file of that name and a link in it. -/
def grove : Machine where
  tree := .directory [("target".toList, .directory
    [("a.rs".toList, .leaf (.file .empty)), ("target".toList, .leaf (.file .empty)),
      ("a".toList, .directory [("b.rs".toList, .leaf (.file .empty))]),
      (".git".toList, .directory [("config".toList, .leaf (.file .empty))]),
      ("up".toList, .leaf (.link "..".toList))])]
  workingDirectory := []
  origin _ := .exited 1

/-- What is listed of it, in the order in which it stands there. -/
def groveEntries : List (Name × Tree Entry) :=
  [("a.rs".toList, .leaf .file), ("target".toList, .leaf .file),
    ("a".toList, .directory [("b.rs".toList, .leaf .file)]),
    (".git".toList, .directory [("config".toList, .leaf .file)]), ("up".toList, .leaf .other)]

theorem tree_grove : grove.host.tree "target".toList = some (.directory groveEntries) := by
  have located : grove.locate false "target".toList = .ok ["target".toList] :=
    Machine.locate_eq_ok_of_follow rfl (by decide) rfl nofun
  change (grove.treeAt "target".toList).toOption = _
  rw [Machine.treeAt, Machine.node_eq_ok_iff.mpr ⟨_, located, rfl⟩]
  rfl

theorem isListing_grove : (Tree.directory groveEntries).IsListing := by
  have file : Tree.IsListing (.leaf Entry.file) := .leaf _
  have single (name : Name) (isStep : name.IsStep) :
      (Tree.directory [(name, .leaf Entry.file)]).IsListing :=
    .directory (by simp) (by simpa using isStep) (by simpa using file)
  refine .directory (by decide) (by decide) ?_
  simp only [groveEntries, List.forall_mem_cons]
  exact ⟨file, file, single _ (by decide), single _ (by decide), .leaf _, nofun⟩

/-- The files of the directory are visited, but not what is below a skipped one and not the link. The
entries may as well be listed in reverse. -/
theorem walk_eq_visited_grove :
    grove.host.tree "target".toList = some (.directory groveEntries) ∧
      (Tree.directory groveEntries).isDirectory ∧ (Tree.directory groveEntries).IsListing ∧
      ∃ visited : List (List Name),
        walk grove.host .standard "target".toList =
          visited.map (fun names => Path.join "target".toList (Text.joined ['/'] names)) ∧
        (∀ names ∈ [["a".toList, "b.rs".toList], ["a.rs".toList], ["target".toList]],
          names ∈ visited) ∧
        (∀ names ∈ [[".git".toList, "config".toList], ["up".toList]], names ∉ visited) ∧
        ∀ host' : Host Id,
          host'.tree "target".toList = some (.directory groveEntries.reverse) →
          walk host' .standard "target".toList = walk grove.host .standard "target".toList := by
  obtain ⟨visited, paths, visited_iff, _, _, reordered, _⟩ :=
    walk_eq_visited .standard tree_grove rfl isListing_grove
  refine ⟨tree_grove, rfl, isListing_grove, visited, paths, ?_, ?_, ?_⟩
  · simp only [List.forall_mem_cons, visited_iff]
    exact ⟨⟨rfl, by decide, .inl rfl, nofun⟩, ⟨rfl, by decide, .inl rfl, nofun⟩,
      ⟨rfl, by decide, .inl rfl, nofun⟩, nofun⟩
  · simp only [List.forall_mem_cons, visited_iff]
    refine ⟨?_, ?_, nofun⟩
    · intro visited
      exact visited.unskipped ".git".toList (by decide) (by decide)
    · intro visited
      cases visited.isFile
  · intro host' found
    exact reordered host' _ found (.here groveEntries.reverse_perm.symm)

end TrackerLinks
