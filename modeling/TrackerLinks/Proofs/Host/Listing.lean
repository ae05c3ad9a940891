import TrackerLinks.Proofs.Host.Respelling
import TrackerLinks.Proofs.Tree.Listing

/-! What a machine lists below a path: the files that stand there without a link on the way, as far
as the paths of their directories are not too long. -/

namespace TrackerLinks

variable {α β : Type} {names : List Name} {name : Name} {path : Path}

namespace Path

theorem size_le_size_join (isStep : name.IsStep) : Text.size path ≤ Text.size (join path name) := by
  rw [join_of_isStep isStep]
  split <;> rw [Text.size_append] <;> exact Nat.le_add_right _ _

theorem size_le_size_below (isStep : ∀ name ∈ names, Name.IsStep name) :
    Text.size path ≤ Text.size (path.below names) := by
  induction names generalizing path with
  | nil => exact Nat.le_refl _
  | cons name names ih =>
      obtain ⟨first, later⟩ := List.forall_mem_cons.mp isStep
      exact Nat.le_trans (size_le_size_join first) (ih later)

/-- The paths of the directories that names lead through are not too long. -/
def Reaches (path : Path) : List Name → Prop
  | [] => True
  | name :: rest => Text.size path ≤ sizeLimit ∧ Reaches (path.join name) rest

theorem reaches_iff (short : Text.size path ≤ sizeLimit) (isStep : ∀ name ∈ names, Name.IsStep name) :
    path.Reaches names ↔ Text.size (path.below names.dropLast) ≤ sizeLimit := by
  induction names generalizing path with
  | nil => exact iff_of_true trivial short
  | cons name rest ih =>
      have later := (List.forall_mem_cons.mp isStep).2
      rw [Reaches, and_iff_right short]
      cases rest with
      | nil => exact iff_of_true trivial short
      | cons next rest =>
          by_cases long : sizeLimit < Text.size (path.join name)
          · have longer : Text.size (path.join name) ≤
                Text.size (path.below (name :: next :: rest).dropLast) :=
              size_le_size_below fun other member => later other (List.dropLast_subset _ member)
            constructor
            · intro reaches
              exact absurd reaches.1 (Nat.not_le.mpr long)
            · intro fits
              exact absurd (Nat.le_trans longer fits) (Nat.not_le.mpr long)
          · exact ih (Nat.not_lt.mp long) later

end Path

namespace Tree

theorem lookup_mapEntries (f : α → β) (entries : List (Name × Tree α)) (name : Name) :
    (mapEntries f entries).lookup name = (entries.lookup name).map (·.map f) := by
  induction entries with
  | nil => rfl
  | cons entry more ih =>
      rw [mapEntries, List.lookup_cons, List.lookup_cons, ih]
      cases name == entry.1 <;> rfl

theorem lookup_listedEntries (entries : List (Name × Tree α)) (name : Name) :
    (listedEntries path entries).lookup name =
      (entries.lookup name).map (·.listed (path.join name)) := by
  induction entries with
  | nil => rfl
  | cons entry more ih =>
      rw [listedEntries, List.lookup_cons, List.lookup_cons, ih]
      cases same : name == entry.1
      · rfl
      · rw [eq_of_beq same]; rfl

theorem get?_listed_eq_some_leaf_iff {tree : Tree α} {value : α} :
    (tree.listed path).get? names = some (leaf value) ↔
      tree.get? names = some (leaf value) ∧ path.Reaches names := by
  induction names generalizing tree path with
  | nil =>
      cases tree with
      | leaf value' => simp [listed, Path.Reaches]
      | directory entries =>
          rw [listed]
          split <;> simp [empty]
  | cons name rest ih =>
      cases tree with
      | leaf value' => simp [listed, get?]
      | directory entries =>
          rw [listed, Path.Reaches]
          split
          · rename_i long
            simp [empty, Nat.not_le.mpr long]
          · rename_i short
            rw [get?_directory_cons, get?_directory_cons, lookup_listedEntries,
              and_iff_right (Nat.not_lt.mp short)]
            cases entries.lookup name with
            | none => simp
            | some sub => exact ih

theorem get?_map_eq_some_leaf_iff {tree : Tree α} {f : α → β} {value : β} :
    (tree.map f).get? names = some (leaf value) ↔
      ∃ original, tree.get? names = some (leaf original) ∧ f original = value := by
  induction names generalizing tree with
  | nil => cases tree <;> simp [map]
  | cons name rest ih =>
      cases tree with
      | leaf value' => simp [map, get?]
      | directory entries =>
          rw [map, get?_directory_cons, get?_directory_cons, lookup_mapEntries]
          cases entries.lookup name with
          | none => simp
          | some sub => exact ih

end Tree

namespace Machine

variable {machine : Machine} {tree : Tree Stored} {links : Nat} {place final : Place}
  {entries : List (Name × Tree Stored)}

theorem locate_true_of_locate_false (located : machine.locate false path = .ok place)
    (found : machine.tree.get? place = some (.directory entries)) :
    machine.locate true path = .ok place := by
  rw [locate_eq_ok_iff] at located ⊢
  exact ⟨located.1, follow_true_of_follow_false located.2 found⟩

theorem host_tree_here
    (stands : machine.tree.get? machine.workingDirectory = some (.directory entries)) :
    machine.host.tree ['.'] = some (((Tree.directory entries).map entry).listed ['.']) := by
  have directory : machine.tree.IsDirectoryAt machine.workingDirectory := by
    rw [Tree.IsDirectoryAt, stands]
    rfl
  have located : machine.locate false ['.'] = .ok machine.workingDirectory := by
    refine locate_eq_ok_iff.mpr ⟨by decide, ?_⟩
    exact (follow_here directory).trans (follow_nil _ _ _ _)
  have reached : machine.node false ['.'] = .ok (.directory entries) :=
    node_eq_ok_iff.mpr ⟨_, located, stands⟩
  change (machine.treeAt ['.']).toOption = _
  rw [treeAt, reached]
  rfl

/-- What is listed below a directory is cut out of the tree at the place that its path leads to. -/
theorem exists_place_of_treeAt {tree : Tree Entry} (listed : machine.treeAt path = .ok tree)
    (isDirectory : tree.isDirectory) :
    ∃ place entries, machine.locate true path = .ok place ∧
      machine.tree.get? place = some (.directory entries) ∧
      tree = ((Tree.directory entries).map entry).listed path := by
  rcases treeAt_cases listed with ⟨followLast, sub, reached, rfl⟩ | rfl
  · obtain ⟨place, located, found⟩ := node_eq_ok_iff.mp reached
    cases sub with
    | leaf value => cases isDirectory
    | directory entries =>
        cases followLast with
        | false => exact ⟨place, entries, locate_true_of_locate_false located found, found, rfl⟩
        | true => exact ⟨place, entries, located, found, rfl⟩
  · cases isDirectory

/-- The files below a path are those of the machine that no link leads through. -/
theorem exists_place_of_host_tree {tree : Tree Entry} (named : machine.tree.AllNames Name.IsStep)
    (listed : machine.host.tree path = some tree) (isDirectory : tree.isDirectory) :
    ∃ place, machine.locate true path = .ok place ∧
      ∀ names, tree.get? names = some (.leaf .file) ↔
        (∃ content, machine.tree.get? (place ++ names) = some (.leaf (.file content))) ∧
          Text.size (path.below names.dropLast) ≤ Path.sizeLimit := by
  obtain ⟨place, entries, located, found, rfl⟩ :=
    exists_place_of_treeAt (treeAt_of_host listed) isDirectory
  refine ⟨place, located, ?_⟩
  intro names
  have inside : machine.tree.get? (place ++ names) = (Tree.directory entries).get? names := by
    rw [Tree.get?_append, found, Option.bind_some]
  have isFile : (∃ stored, (Tree.directory entries).get? names = some (.leaf stored) ∧
      entry stored = .file) ↔
      ∃ content, (Tree.directory entries).get? names = some (.leaf (.file content)) := by
    constructor
    · rintro ⟨content | target, stands, isFile⟩
      · exact ⟨content, stands⟩
      · cases isFile
    · rintro ⟨content, stands⟩
      exact ⟨_, stands, rfl⟩
  rw [Tree.get?_listed_eq_some_leaf_iff, Tree.get?_map_eq_some_leaf_iff, isFile, inside]
  refine and_congr_right ?_
  rintro ⟨content, stands⟩
  exact Path.reaches_iff (size_le_of_locate located)
    ((named.of_get? found).2.of_get? stands).1

end Machine

end TrackerLinks
