import Mathlib.Data.List.Sort
import TrackerLinks.Proofs.Path.Names
import TrackerLinks.Proofs.Text.Lookup
import TrackerLinks.Proofs.Tree.Contents

namespace TrackerLinks

variable {α : Type}

namespace Name

variable {a b c : Name}

theorem le_iff : Name.le a b = true ↔ a < b ∨ a = b := by
  rw [Name.le, Bool.not_eq_true', List.lex_eq_false_iff_ge, List.le_iff_lt_or_eq]

theorem le_trans (first : Name.le a b = true) (second : Name.le b c = true) :
    Name.le a c = true := by
  rw [le_iff] at first second ⊢
  rcases first with first | rfl
  · rcases second with second | rfl
    · exact .inl (List.lt_trans first second)
    · exact .inl first
  · exact second

theorem le_total (a b : Name) : (Name.le a b || Name.le b a) = true := by
  rw [Bool.or_eq_true, le_iff, le_iff]
  rcases List.le_total a b with le | le
  · exact .inl (List.le_iff_lt_or_eq.mp le)
  · exact .inr (List.le_iff_lt_or_eq.mp le)

end Name

namespace Tree

variable {tree tree' sub : Tree α} {entries entries' : List (Name × Tree α)} {name : Name}
  {names rest : List Name}

/-- Each directory of the tree lists names, none of them twice. -/
inductive IsListing : Tree α → Prop
  | leaf (value : α) : IsListing (leaf value)
  | directory {entries : List (Name × Tree α)} (distinct : (entries.map Prod.fst).Nodup)
      (named : ∀ entry ∈ entries, Name.IsStep entry.1)
      (below : ∀ entry ∈ entries, IsListing entry.2) : IsListing (directory entries)

theorem get?_directory_eq_some_iff (distinct : (entries.map Prod.fst).Nodup) :
    (directory entries).get? (name :: rest) = some sub ↔
      ∃ inner, (name, inner) ∈ entries ∧ inner.get? rest = some sub := by
  simp only [get?_directory_cons, Option.bind_eq_some_iff,
    Text.lookup_eq_some_iff (Text.isUnambiguous_of_nodup distinct)]

theorem IsListing.isStep (listing : tree.IsListing) (found : tree.get? names = some sub) :
    ∀ name ∈ names, Name.IsStep name := by
  induction listing generalizing names with
  | leaf value =>
      cases names with
      | nil => simp
      | cons name rest => cases found
  | directory distinct named _ ih =>
      cases names with
      | nil => simp
      | cons name rest =>
          obtain ⟨inner, member, found⟩ := (get?_directory_eq_some_iff distinct).mp found
          exact List.forall_mem_cons.mpr ⟨named _ member, ih _ member found⟩

theorem get?_leaf_eq_some_leaf_iff {value value' : α} :
    (leaf value).get? names = some (leaf value') ↔ names = [] ∧ value = value' := by
  cases names <;> simp [get?]

theorem isDirectory_of_get?_eq_some_leaf {value : α} (found : sub.get? rest = some (leaf value)) :
    sub.isDirectory = !rest.isEmpty := by
  cases sub with
  | leaf value' => rw [(get?_leaf_eq_some_leaf_iff.mp found).1]; rfl
  | directory entries =>
      cases rest with
      | nil => cases found
      | cons name rest => rfl

/-- The tree with the entries of directories in another order. -/
inductive Reordered : Tree α → Tree α → Prop
  | here {entries entries' : List (Name × Tree α)} (perm : entries.Perm entries') :
      Reordered (directory entries) (directory entries')
  | inside {front back : List (Name × Tree α)} {name : Name} {tree tree' : Tree α}
      (inner : Reordered tree tree') :
      Reordered (directory (front ++ (name, tree) :: back))
        (directory (front ++ (name, tree') :: back))
  | trans {tree middle tree' : Tree α} (first : Reordered tree middle)
      (second : Reordered middle tree') : Reordered tree tree'

theorem Reordered.isListing (h : tree.Reordered tree') (listing : tree.IsListing) :
    tree'.IsListing := by
  induction h with
  | here perm =>
      obtain _ | ⟨distinct, named, below⟩ := listing
      exact .directory ((perm.map Prod.fst).nodup_iff.mp distinct)
        (fun entry member => named entry (perm.mem_iff.mpr member))
        (fun entry member => below entry (perm.mem_iff.mpr member))
  | inside _ ih =>
      obtain _ | ⟨distinct, named, below⟩ := listing
      simp only [List.map_append, List.map_cons] at distinct
      simp only [List.forall_mem_append, List.forall_mem_cons] at named below
      refine .directory ?_ ?_ ?_
      · simpa only [List.map_append, List.map_cons] using distinct
      · simpa only [List.forall_mem_append, List.forall_mem_cons] using named
      · simp only [List.forall_mem_append, List.forall_mem_cons]
        exact ⟨below.1, ih below.2.1, below.2.2⟩
  | trans _ _ first second => exact second (first listing)

theorem Reordered.get?_eq_some_leaf_iff {value : α} (h : tree.Reordered tree')
    (listing : tree.IsListing) :
    tree.get? names = some (leaf value) ↔ tree'.get? names = some (leaf value) := by
  induction h generalizing names with
  | here perm =>
      have listing' := (Reordered.here perm).isListing listing
      obtain _ | ⟨distinct, _, _⟩ := listing
      obtain _ | ⟨distinct', _, _⟩ := listing'
      cases names with
      | nil => simp
      | cons name rest =>
          simp only [get?_directory_eq_some_iff distinct, get?_directory_eq_some_iff distinct',
            perm.mem_iff]
  | inside inner ih =>
      have listing' := (Reordered.inside inner).isListing listing
      obtain _ | ⟨distinct, _, below⟩ := listing
      obtain _ | ⟨distinct', _, _⟩ := listing'
      cases names with
      | nil => simp
      | cons name rest =>
          have same := @ih rest (below _ (List.mem_append_right _ List.mem_cons_self))
          simp only [get?_directory_eq_some_iff distinct, get?_directory_eq_some_iff distinct',
            List.mem_append, List.mem_cons, Prod.mk.injEq, or_and_right, exists_or, and_assoc,
            exists_eq_left, same, exists_and_left]
  | trans first _ ih ih' => exact (ih listing).trans (ih' (first.isListing listing))

end Tree

namespace Tree

variable {tree tree' : Tree Entry} {entries : List (Name × Tree Entry)} {name : Name}
  {names rest : List Name}

theorem branches_eq_map (entries : List (Name × Tree Entry)) :
    branches entries = entries.map fun (name, tree) =>
      (name, if tree.isDirectory && isSkippedName name then [] else tree.files) := by
  induction entries with
  | nil => rw [branches, List.map_nil]
  | cons entry more ih => rw [branches, List.map_cons, ih]

theorem files_directory_of_sorted (sorted : entries.Pairwise (Name.le ·.1 ·.1)) :
    (directory entries).files = (branches entries).flatMap fun branch =>
      branch.2.map (branch.1 :: ·) := by
  rw [files, List.mergeSort_of_pairwise]
  rw [branches_eq_map, List.pairwise_map]
  exact sorted

theorem cons_mem_files_iff :
    name :: rest ∈ (directory entries).files ↔
      ∃ sub, (name, sub) ∈ entries ∧ (sub.isDirectory && isSkippedName name) = false ∧
        rest ∈ sub.files := by
  rw [files, List.mem_flatMap]
  simp only [List.mem_mergeSort, branches_eq_map, List.mem_map]
  constructor
  · rintro ⟨_, ⟨⟨name, sub⟩, member, rfl⟩, rest, below, ⟨⟩⟩
    dsimp only at below
    split at below
    · cases below
    · rename_i kept
      exact ⟨sub, member, eq_false_of_ne_true kept, below⟩
  · rintro ⟨sub, member, kept, below⟩
    exact ⟨_, ⟨(name, sub), member, rfl⟩, rest, by rwa [kept, if_neg Bool.false_ne_true], rfl⟩

theorem forall_mem_dropLast_cons {p : Name → Prop} :
    (∀ other ∈ (name :: rest).dropLast, p other) ↔
      (rest ≠ [] → p name) ∧ ∀ other ∈ rest.dropLast, p other := by
  cases rest <;> simp

theorem mem_files_iff (listing : tree.IsListing) :
    names ∈ tree.files ↔
      tree.get? names = some (.leaf .file) ∧
        ∀ name ∈ names.dropLast, isSkippedName name = false := by
  induction listing generalizing names with
  | leaf value =>
      rw [get?_leaf_eq_some_leaf_iff]
      cases value with
      | file => simp +contextual [files]
      | other => simp [files]
  | @directory entries distinct _ _ ih =>
      cases names with
      | nil => simpa using fun member => ne_nil_of_mem_files member rfl
      | cons name rest =>
          rw [cons_mem_files_iff, get?_directory_eq_some_iff distinct, forall_mem_dropLast_cons]
          constructor
          · rintro ⟨sub, member, kept, visited⟩
            obtain ⟨found, unskipped⟩ := (ih _ member).mp visited
            rw [isDirectory_of_get?_eq_some_leaf found] at kept
            exact ⟨⟨sub, member, found⟩, fun deeper => by simpa [deeper] using kept, unskipped⟩
          · rintro ⟨⟨sub, member, found⟩, first, unskipped⟩
            refine ⟨sub, member, ?_, (ih _ member).mpr ⟨found, unskipped⟩⟩
            rw [isDirectory_of_get?_eq_some_leaf found]
            cases rest with
            | nil => rfl
            | cons next rest => exact first (List.cons_ne_nil next rest)

theorem sorted_branches_ordered (distinct : (entries.map Prod.fst).Nodup) :
    ((branches entries).mergeSort fun a b => Name.le a.1 b.1).Pairwise (·.1 < ·.1) := by
  have sorted : ((branches entries).mergeSort fun a b => Name.le a.1 b.1).Pairwise
      (Name.le ·.1 ·.1) := by
    apply List.pairwise_mergeSort
    · intro a b c
      exact Name.le_trans
    · intro a b
      exact Name.le_total a.1 b.1
  have names : (branches entries).map Prod.fst = entries.map Prod.fst := by
    rw [branches_eq_map, List.map_map]
    rfl
  have different : ((branches entries).mergeSort fun a b => Name.le a.1 b.1).Pairwise
      (·.1 ≠ ·.1) := by
    rw [← names] at distinct
    exact List.pairwise_map.mp (((List.mergeSort_perm _ _).map Prod.fst).nodup_iff.mpr distinct)
  exact (sorted.and different).imp fun ⟨le, ne⟩ => (Name.le_iff.mp le).resolve_right ne

/-- Names are compared one by one, so that what is below a directory stands together. -/
theorem files_ordered (listing : tree.IsListing) : tree.files.Pairwise (· < ·) := by
  induction listing with
  | leaf value => cases value <;> simp [files]
  | @directory entries distinct _ _ ih =>
      rw [files, List.pairwise_flatMap]
      constructor
      case left =>
        intro branch member
        rw [List.mem_mergeSort, branches_eq_map] at member
        obtain ⟨⟨name, sub⟩, among, rfl⟩ := List.mem_map.mp member
        rw [List.pairwise_map]
        refine List.Pairwise.imp (fun lower => List.cons_lt_cons_iff.mpr (.inr ⟨rfl, lower⟩)) ?_
        dsimp only
        split
        · exact .nil
        · exact ih _ among
      case right =>
        refine (sorted_branches_ordered distinct).imp ?_
        intro branch branch' lower names member names' member'
        obtain ⟨rest, _, rfl⟩ := List.mem_map.mp member
        obtain ⟨rest', _, rfl⟩ := List.mem_map.mp member'
        exact List.cons_lt_cons_iff.mpr (.inl lower)

theorem Reordered.files_eq (h : tree.Reordered tree') (listing : tree.IsListing) :
    tree'.files = tree.files := by
  have listing' := h.isListing listing
  refine (files_ordered listing').eq_of_mem_iff (files_ordered listing) ?_
  intro names
  rw [mem_files_iff listing, mem_files_iff listing', h.get?_eq_some_leaf_iff listing]

end Tree

end TrackerLinks
