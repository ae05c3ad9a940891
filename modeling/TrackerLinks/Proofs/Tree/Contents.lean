import TrackerLinks.Walk

namespace TrackerLinks.Tree

variable {α β : Type} {tree sub : Tree α} {entries : List (Name × Tree α)} {name : Name}
  {names front back : List Name} {p : Name → Prop} {q : α → Prop}

@[simp] theorem get?_nil (tree : Tree α) : tree.get? [] = some tree := by
  cases tree <;> rfl

@[simp] theorem get?_directory_cons (entries : List (Name × Tree α)) (name : Name)
    (names : List Name) :
    (directory entries).get? (name :: names) = (entries.lookup name).bind (·.get? names) := rfl

theorem get?_append (tree : Tree α) (front back : List Name) :
    tree.get? (front ++ back) = (tree.get? front).bind (·.get? back) := by
  induction front generalizing tree with
  | nil => simp
  | cons name front ih =>
      cases tree with
      | leaf value => rfl
      | directory entries =>
          rw [List.cons_append, get?_directory_cons, get?_directory_cons, Option.bind_assoc]
          congr 1
          funext sub
          exact ih sub

theorem get?_concat (h : tree.get? front = some (directory entries)) (name : Name) :
    tree.get? (front ++ [name]) = entries.lookup name := by
  rw [get?_append, h, Option.bind_some, get?_directory_cons]
  cases entries.lookup name with
  | none => rfl
  | some sub => exact get?_nil sub

/-- There is a directory at the end of the names. -/
def IsDirectoryAt (tree : Tree α) (names : List Name) : Prop :=
  (tree.get? names).any isDirectory

instance (tree : Tree α) (names : List Name) : Decidable (tree.IsDirectoryAt names) :=
  inferInstanceAs (Decidable (_ = true))

theorem isDirectoryAt_iff :
    tree.IsDirectoryAt names ↔ ∃ entries, tree.get? names = some (directory entries) := by
  rw [IsDirectoryAt, Option.any_eq_true]
  constructor
  · intro h
    obtain ⟨sub, found, isDirectory⟩ := h
    cases sub with
    | leaf value => cases isDirectory
    | directory entries => exact ⟨entries, found⟩
  · intro h
    obtain ⟨entries, found⟩ := h
    exact ⟨_, found, rfl⟩

theorem isDirectoryAt_of_append (h : (tree.get? (front ++ back)).isSome) (further : back ≠ []) :
    tree.IsDirectoryAt front := by
  rw [get?_append] at h
  rw [isDirectoryAt_iff]
  cases found : tree.get? front with
  | none =>
      rw [found] at h
      cases h
  | some sub =>
      cases sub with
      | leaf value =>
          obtain ⟨name, back, rfl⟩ := List.exists_cons_of_ne_nil further
          rw [found] at h
          cases h
      | directory entries => exact ⟨entries, rfl⟩

theorem IsDirectoryAt.isSome (h : tree.IsDirectoryAt names) : (tree.get? names).isSome := by
  obtain ⟨entries, found⟩ := isDirectoryAt_iff.mp h
  rw [found]
  rfl

theorem IsDirectoryAt.of_isPrefix (h : tree.IsDirectoryAt names) (above : front <+: names) :
    tree.IsDirectoryAt front := by
  obtain ⟨back, rfl⟩ := above
  cases back with
  | nil => rwa [List.append_nil] at h
  | cons name back => exact isDirectoryAt_of_append h.isSome (List.cons_ne_nil _ _)

mutual

/-- Every name in the tree satisfies `p` and every leaf `q`. -/
def All (p : Name → Prop) (q : α → Prop) : Tree α → Prop
  | leaf value => q value
  | directory entries => AllIn p q entries

def AllIn (p : Name → Prop) (q : α → Prop) : List (Name × Tree α) → Prop
  | [] => True
  | (name, tree) :: more => p name ∧ tree.All p q ∧ AllIn p q more

end

abbrev AllNames (p : Name → Prop) (tree : Tree α) : Prop :=
  tree.All p fun _ => True

mutual

def decidableAll [DecidablePred p] [DecidablePred q] : (tree : Tree α) → Decidable (tree.All p q)
  | leaf value => inferInstanceAs (Decidable (q value))
  | directory entries => decidableAllIn entries

def decidableAllIn [DecidablePred p] [DecidablePred q] :
    (entries : List (Name × Tree α)) → Decidable (AllIn p q entries)
  | [] => isTrue trivial
  | (name, tree) :: more =>
      have : Decidable (tree.All p q) := decidableAll tree
      have : Decidable (AllIn p q more) := decidableAllIn more
      inferInstanceAs (Decidable (p name ∧ tree.All p q ∧ AllIn p q more))

end

instance [DecidablePred p] [DecidablePred q] : DecidablePred (All p q) :=
  decidableAll

mutual

theorem all_map {q : β → Prop} (f : α → β) :
    (tree : Tree α) → tree.All p (fun value => q (f value)) → (tree.map f).All p q
  | leaf _, h => h
  | directory entries, h => allIn_mapEntries f entries h

theorem allIn_mapEntries {q : β → Prop} (f : α → β) :
    (entries : List (Name × Tree α)) → AllIn p (fun value => q (f value)) entries →
      AllIn p q (mapEntries f entries)
  | [], _ => trivial
  | (_, tree) :: more, ⟨here, below, later⟩ =>
      ⟨here, all_map f tree below, allIn_mapEntries f more later⟩

end

mutual

theorem all_listed :
    (path : Path) → (tree : Tree α) → tree.All p q → (tree.listed path).All p q
  | _, leaf _, h => h
  | path, directory entries, h => by
      rw [listed]
      split
      · exact trivial
      · exact allIn_listedEntries path entries h

theorem allIn_listedEntries :
    (path : Path) → (entries : List (Name × Tree α)) → AllIn p q entries →
      AllIn p q (listedEntries path entries)
  | _, [], _ => trivial
  | path, (name, tree) :: more, ⟨here, below, later⟩ =>
      ⟨here, all_listed (path.join name) tree below, allIn_listedEntries path more later⟩

end

mutual

theorem forall_mem_files {q : Entry → Prop} :
    (tree : Tree Entry) → tree.All p q → ∀ names ∈ tree.files, ∀ name ∈ names, p name
  | leaf .file, _, names, member => by
      rw [files, List.mem_singleton] at member
      subst member
      simp
  | leaf .other, _, names, member => by
      rw [files] at member
      cases member
  | directory entries, h, names, member => by
      rw [files, List.mem_flatMap] at member
      obtain ⟨branch, sorted, member⟩ := member
      obtain ⟨rest, below, rfl⟩ := List.mem_map.mp member
      rw [List.mem_mergeSort] at sorted
      obtain ⟨here, later⟩ := forall_mem_branches entries h branch sorted
      exact List.forall_mem_cons.mpr ⟨here, later rest below⟩

theorem forall_mem_branches {q : Entry → Prop} :
    (entries : List (Name × Tree Entry)) → AllIn p q entries →
      ∀ branch ∈ branches entries, p branch.1 ∧ ∀ names ∈ branch.2, ∀ name ∈ names, p name
  | [], _, branch, member => by
      rw [branches] at member
      cases member
  | (name, tree) :: more, ⟨here, below, later⟩, branch, member => by
      rw [branches] at member
      rcases List.mem_cons.mp member with rfl | member
      · refine ⟨here, ?_⟩
        intro names member
        split at member
        · cases member
        · exact forall_mem_files tree below names member
      · exact forall_mem_branches more later branch member

end

theorem ne_nil_of_mem_files {entries : List (Name × Tree Entry)}
    (member : names ∈ (directory entries).files) : names ≠ [] := by
  rw [files, List.mem_flatMap] at member
  obtain ⟨branch, _, member⟩ := member
  obtain ⟨rest, _, rfl⟩ := List.mem_map.mp member
  exact List.cons_ne_nil _ _

theorem all_of_lookup (h : AllIn p q entries) (found : entries.lookup name = some sub) :
    p name ∧ sub.All p q := by
  induction entries with
  | nil => cases found
  | cons entry more ih =>
      obtain ⟨other, tree⟩ := entry
      obtain ⟨here, below, later⟩ := h
      rw [List.lookup_cons] at found
      split at found
      · rename_i same
        cases found
        rw [eq_of_beq same]
        exact ⟨here, below⟩
      · exact ih later found

theorem All.of_get? (h : tree.All p q) (found : tree.get? names = some sub) :
    (∀ name ∈ names, p name) ∧ sub.All p q := by
  induction names generalizing tree with
  | nil =>
      rw [get?_nil] at found
      cases found
      exact ⟨by simp, h⟩
  | cons name names ih =>
      cases tree with
      | leaf value => cases found
      | directory entries =>
          rw [get?_directory_cons] at found
          obtain ⟨inner, here, below⟩ := Option.bind_eq_some_iff.mp found
          obtain ⟨first, inside⟩ := all_of_lookup h here
          obtain ⟨later, last⟩ := ih inside below
          exact ⟨List.forall_mem_cons.mpr ⟨first, later⟩, last⟩

end TrackerLinks.Tree
