import TrackerLinks.Proofs.Path.Names
import TrackerLinks.Proofs.Tree.Contents

/-! Where a path leads on a machine: each name leads into a directory, stays or goes up, and where
there are no links all that it passes through are directories. -/

namespace TrackerLinks

variable {tree : Tree Stored} {followLast : Bool} {links : Nat} {place final : Place}
  {name : Name} {names rest : List Name} {path : Path}

/-- A name that a directory may list. -/
structure Name.IsProper (name : Name) : Prop extends name.IsStep where
  ne_up : name ≠ ['.', '.']
  nul : '\x00' ∉ name
  size_le : Text.size name ≤ Machine.nameLimit

instance : DecidablePred Name.IsProper := fun name =>
  decidable_of_iff
    (name.IsStep ∧ name ≠ ['.', '.'] ∧ '\x00' ∉ name ∧ Text.size name ≤ Machine.nameLimit)
    ⟨fun ⟨isStep, ne_up, nul, size_le⟩ => ⟨isStep, ne_up, nul, size_le⟩,
      fun h => ⟨h.toIsStep, h.ne_up, h.nul, h.size_le⟩⟩

def Stored.IsFile : Stored → Prop
  | file _ => True
  | link _ => False

instance : DecidablePred Stored.IsFile
  | .file _ => isTrue trivial
  | .link _ => isFalse id

namespace Place

/-- Where a name leads from a directory. -/
def enter (place : Place) (name : Name) : Place :=
  if name = ['.'] then place else if name = ['.', '.'] then place.dropLast else place ++ [name]

def resolve (place : Place) (names : List Name) : Place :=
  names.foldl enter place

@[simp] theorem enter_dot (place : Place) : enter place ['.'] = place := rfl

@[simp] theorem enter_up (place : Place) : enter place ['.', '.'] = place.dropLast := rfl

theorem enter_of_ne (ne_dot : name ≠ ['.']) (ne_up : name ≠ ['.', '.']) (place : Place) :
    enter place name = place ++ [name] := by
  rw [enter, if_neg ne_dot, if_neg ne_up]

theorem isPrefix_of_isPrefix_enter {above : Place} (h : above <+: enter place name)
    (ne : above ≠ enter place name) : above <+: place := by
  rw [enter] at h ne
  split at h
  · exact h
  split at h
  · exact h.trans (List.dropLast_prefix place)
  · rename_i dot up
    rw [if_neg dot, if_neg up] at ne
    exact (List.prefix_concat_iff.mp h).resolve_left ne

theorem dropLast_enter (inside : tree.IsDirectoryAt place)
    (outside : ¬ tree.IsDirectoryAt (enter place name)) : (enter place name).dropLast = place := by
  rw [enter] at outside ⊢
  split
  · rename_i dot
    rw [if_pos dot] at outside
    exact absurd inside outside
  split
  · rename_i dot up
    rw [if_neg dot, if_pos up] at outside
    exact absurd (inside.of_isPrefix (List.dropLast_prefix place)) outside
  · exact List.dropLast_concat

@[simp] theorem resolve_nil (place : Place) : resolve place [] = place := rfl

@[simp] theorem resolve_cons (place : Place) (name : Name) (rest : List Name) :
    resolve place (name :: rest) = resolve (enter place name) rest := rfl

theorem resolve_append (place : Place) (names rest : List Name) :
    resolve place (names ++ rest) = resolve (resolve place names) rest :=
  List.foldl_append

theorem resolve_of_forall_ne (forward : ∀ name ∈ names, name ≠ ['.'] ∧ name ≠ ['.', '.'])
    (place : Place) : resolve place names = place ++ names := by
  induction names generalizing place with
  | nil => simp
  | cons name names ih =>
      obtain ⟨first, later⟩ := List.forall_mem_cons.mp forward
      rw [resolve_cons, enter_of_ne first.1 first.2, ih later, List.append_assoc,
        List.singleton_append]

end Place

namespace Machine

@[simp] theorem follow_nil (tree : Tree Stored) (followLast : Bool) (links : Nat) (place : Place) :
    follow tree followLast links place [] = .ok place := by
  rw [follow]

theorem follow_blocked (h : ¬ tree.IsDirectoryAt place) :
    follow tree followLast links place (name :: rest) = .error .notADirectory := by
  rw [follow]
  split
  · rename_i entries found
    exact absurd (Tree.isDirectoryAt_iff.mpr ⟨entries, found⟩) h
  · rfl

theorem follow_here (h : tree.IsDirectoryAt place) :
    follow tree followLast links place (['.'] :: rest) = follow tree followLast links place rest := by
  obtain ⟨entries, found⟩ := Tree.isDirectoryAt_iff.mp h
  rw [follow, found]
  rfl

theorem follow_up (h : tree.IsDirectoryAt place) :
    follow tree followLast links place (['.', '.'] :: rest) =
      follow tree followLast links place.dropLast rest := by
  obtain ⟨entries, found⟩ := Tree.isDirectoryAt_iff.mp h
  rw [follow, found]
  rfl

theorem follow_absent (h : tree.IsDirectoryAt place) (ne_dot : name ≠ ['.'])
    (ne_up : name ≠ ['.', '.']) (absent : tree.get? (place ++ [name]) = none) :
    follow tree followLast links place (name :: rest) =
      .error (if nameLimit < Text.size name then .nameTooLong else .notFound) := by
  obtain ⟨entries, found⟩ := Tree.isDirectoryAt_iff.mp h
  rw [Tree.get?_concat found] at absent
  rw [follow, found]
  simp only [if_neg ne_dot, if_neg ne_up, absent]
  split <;> rfl

theorem isDirectoryAt_enter (directory : tree.IsDirectoryAt place)
    (stays : name = ['.'] ∨ name = ['.', '.']) : tree.IsDirectoryAt (place.enter name) := by
  rcases stays with rfl | rfl
  · exact directory
  · exact directory.of_isPrefix (List.dropLast_prefix place)

/-- One name is passed, whatever it is, if it leads to something that is no link. -/
theorem follow_passed {sub : Tree Stored} (directory : tree.IsDirectoryAt place)
    (fits : Text.size name ≤ nameLimit) (found : tree.get? (place.enter name) = some sub)
    (unlinked : ∀ target, sub ≠ .leaf (.link target)) :
    follow tree followLast links place (name :: rest) =
      follow tree followLast links (place.enter name) rest := by
  by_cases dot : name = ['.']
  · subst dot
    exact follow_here directory
  by_cases up : name = ['.', '.']
  · subst up
    exact follow_up directory
  rw [Place.enter_of_ne dot up] at found ⊢
  obtain ⟨entries, here⟩ := Tree.isDirectoryAt_iff.mp directory
  rw [Tree.get?_concat here] at found
  rw [follow, here]
  simp only [if_neg dot, if_neg up, if_neg (Nat.not_lt.mpr fits), found]

theorem follow_through {target : Path} (directory : tree.IsDirectoryAt place)
    (fits : Text.size name ≤ nameLimit)
    (found : tree.get? (place.enter name) = some (.leaf (.link target))) :
    follow tree true links place (name :: rest) =
      match links with
      | 0 => .error .tooManyLinks
      | links + 1 => follow tree true links (linkStart place target) (Path.steps target ++ rest) := by
  have forward : name ≠ ['.'] ∧ name ≠ ['.', '.'] := by
    rw [← not_or]
    intro stays
    have inside := isDirectoryAt_enter directory stays
    rw [Tree.IsDirectoryAt, found] at inside
    cases inside
  rw [Place.enter_of_ne forward.1 forward.2] at found
  obtain ⟨entries, here⟩ := Tree.isDirectoryAt_iff.mp directory
  rw [Tree.get?_concat here] at found
  rw [follow, here]
  cases links <;> simp only [if_neg forward.1, if_neg forward.2, if_neg (Nat.not_lt.mpr fits),
    found, Bool.not_true, Bool.and_false, Bool.false_eq_true, if_false]

theorem follow_enter {sub : Tree Stored} (h : tree.IsDirectoryAt place) (isProper : name.IsProper)
    (found : tree.get? (place ++ [name]) = some sub) (unlinked : ∀ target, sub ≠ .leaf (.link target)) :
    follow tree followLast links place (name :: rest) =
      follow tree followLast links (place ++ [name]) rest := by
  rw [← Place.enter_of_ne isProper.ne_dot isProper.ne_up] at found ⊢
  exact follow_passed h isProper.size_le found unlinked

theorem follow_link {target : Path} (h : tree.IsDirectoryAt place) (isProper : name.IsProper)
    (found : tree.get? (place ++ [name]) = some (.leaf (.link target))) :
    follow tree true (links + 1) place (name :: rest) =
      follow tree true links (linkStart place target) (Path.steps target ++ rest) := by
  rw [← Place.enter_of_ne isProper.ne_dot isProper.ne_up] at found
  exact follow_through h isProper.size_le found

/-- It makes no difference whether a link at the end is followed if none stands there. -/
theorem follow_true_of_follow_false {entries : List (Name × Tree Stored)}
    (followed : follow tree false links place names = .ok final)
    (found : tree.get? final = some (.directory entries)) :
    follow tree true links place names = .ok final := by
  fun_induction follow tree false links place names with
  | case1 => rw [follow_nil]; exact followed
  | case2 links place rest _ directory ih =>
      rw [follow_here (Tree.isDirectoryAt_iff.mpr ⟨_, directory⟩)]
      exact ih followed
  | case3 links place rest _ directory _ ih =>
      rw [follow_up (Tree.isDirectoryAt_iff.mpr ⟨_, directory⟩)]
      exact ih followed
  | case6 links place name rest _ directory _ _ _ _ link =>
      cases followed
      rw [Tree.get?_concat directory, link] at found
      cases found
  | case8 place name rest _ directory ne_dot ne_up short target link _ links ih =>
      rw [follow, directory]
      simp only [if_neg ne_dot, if_neg ne_up, if_neg short, link, Bool.not_true, Bool.and_false,
        Bool.false_eq_true, if_false]
      exact ih followed
  | case9 links place name rest _ directory ne_dot ne_up short sub unlinked listed ih =>
      rw [follow, directory]
      simp only [if_neg ne_dot, if_neg ne_up, if_neg short, listed]
      exact ih followed
  -- In all other cases the names lead nowhere.
  | _ => cases followed

/-- Names lead on one by one to what is there, unless a link stands at their end. -/
theorem follow_append {sub : Tree Stored} (isProper : ∀ name ∈ names, Name.IsProper name)
    (found : tree.get? (place ++ names) = some sub) (unlinked : ∀ target, sub ≠ .leaf (.link target)) :
    follow tree followLast links place (names ++ rest) =
      follow tree followLast links (place ++ names) rest := by
  induction names generalizing place with
  | nil => rw [List.nil_append, List.append_nil]
  | cons name names ih =>
      obtain ⟨first, later⟩ := List.forall_mem_cons.mp isProper
      have split : place ++ name :: names = (place ++ [name]) ++ names := by simp
      have directory : tree.IsDirectoryAt place :=
        Tree.isDirectoryAt_of_append (by rw [found]; rfl) (List.cons_ne_nil name names)
      rw [split] at found ⊢
      rw [List.cons_append, ← ih later found]
      cases names with
      | nil =>
          rw [List.append_nil] at found
          exact follow_enter directory first found unlinked
      | cons next names =>
          have inner : tree.IsDirectoryAt (place ++ [name]) :=
            Tree.isDirectoryAt_of_append (by rw [found]; rfl) (List.cons_ne_nil next names)
          obtain ⟨entries, here⟩ := Tree.isDirectoryAt_iff.mp inner
          exact follow_enter directory first here nofun

theorem follow_dot (tree : Tree Stored) (followLast : Bool) (links : Nat) (place : Place)
    (name : Name) (rest : List Name) :
    follow tree followLast links place (['.'] :: name :: rest) =
      follow tree followLast links place (name :: rest) := by
  by_cases h : tree.IsDirectoryAt place
  · exact follow_here h
  · rw [follow_blocked h, follow_blocked h]

/-- Each of the names can be looked up, as there is a directory to look it up in. -/
def Passable (tree : Tree Stored) : Place → List Name → Prop
  | _, [] => True
  | place, name :: rest => tree.IsDirectoryAt place ∧ Passable tree (Place.enter place name) rest

instance decidablePassable (tree : Tree Stored) :
    (place : Place) → (names : List Name) → Decidable (Passable tree place names)
  | _, [] => isTrue trivial
  | place, name :: rest =>
      have := decidablePassable tree (Place.enter place name) rest
      inferInstanceAs (Decidable (_ ∧ _))

theorem passable_append :
    Passable tree place (names ++ rest) ↔
      Passable tree place names ∧ Passable tree (Place.resolve place names) rest := by
  induction names generalizing place with
  | nil => simp [Passable]
  | cons name names ih => rw [List.cons_append, Passable, Passable, ih, and_assoc]; rfl

theorem isSome_of_passable (passable : Passable tree place names)
    (present : (tree.get? (Place.resolve place names)).isSome) : (tree.get? place).isSome := by
  cases names with
  | nil => exact present
  | cons name rest => exact passable.1.isSome

/-- Names lead to where they resolve to, if each can be looked up and the last is there. -/
theorem follow_eq_ok_iff (plain : tree.All Name.IsProper Stored.IsFile)
    (present : (tree.get? place).isSome) :
    follow tree followLast links place names = .ok final ↔
      Passable tree place names ∧ (tree.get? final).isSome ∧ final = Place.resolve place names := by
  induction names generalizing place with
  | nil =>
      rw [follow_nil]
      constructor
      · intro h
        cases h
        exact ⟨trivial, present, rfl⟩
      · rintro ⟨_, _, rfl⟩
        rfl
  | cons name rest ih =>
      rw [Passable, Place.resolve_cons]
      by_cases directory : tree.IsDirectoryAt place
      case neg =>
        rw [follow_blocked directory]
        simp [directory]
      by_cases dot : name = ['.']
      · subst dot
        rw [follow_here directory, ih present]
        simp [directory]
      by_cases up : name = ['.', '.']
      · subst up
        have parent := (directory.of_isPrefix (List.dropLast_prefix place)).isSome
        rw [follow_up directory, ih parent]
        simp [directory]
      rw [Place.enter_of_ne dot up]
      cases found : tree.get? (place ++ [name]) with
      | none =>
          rw [follow_absent directory dot up found]
          constructor
          · intro h
            cases h
          · rintro ⟨⟨_, passable⟩, reached, rfl⟩
            have present := isSome_of_passable passable reached
            rw [found] at present
            cases present
      | some sub =>
          obtain ⟨proper, files⟩ := plain.of_get? found
          have unlinked (target : Path) : sub ≠ .leaf (.link target) := by
            rintro rfl
            exact files
          rw [follow_enter directory (proper name (by simp)) found unlinked,
            ih (by rw [found]; rfl)]
          simp [directory]

/-- A machine whose files and directories stand where they seem to stand. -/
structure IsPlain (machine : Machine) : Prop where
  contents : machine.tree.All Name.IsProper Stored.IsFile
  workingDirectory : machine.tree.IsDirectoryAt machine.workingDirectory

variable {machine : Machine}

theorem node_eq_ok_iff {sub : Tree Stored} :
    machine.node followLast path = .ok sub ↔
      ∃ place, machine.locate followLast path = .ok place ∧ machine.tree.get? place = some sub := by
  rw [node]
  cases machine.locate followLast path with
  | error reason => simp [bind, Except.bind]
  | ok place =>
      cases found : machine.tree.get? place with
      | none => simp [bind, Except.bind, found, throw, throwThe, MonadExceptOf.throw]
      | some sub => simp [bind, Except.bind, found, pure, Except.pure]

theorem locate_eq_ok_of_follow {sub : Tree Stored}
    (led : machine.locate followLast path =
      follow machine.tree followLast links [] (place ++ []))
    (isProper : ∀ name ∈ place, Name.IsProper name) (found : machine.tree.get? place = some sub)
    (unlinked : ∀ target, sub ≠ .leaf (.link target)) : machine.locate followLast path = .ok place := by
  have arrives : follow machine.tree followLast links [] (place ++ []) =
      follow machine.tree followLast links place [] := follow_append isProper found unlinked
  rw [led, arrives, follow_nil]

theorem IsPlain.root (plain : machine.IsPlain) : machine.tree.IsDirectoryAt [] :=
  plain.workingDirectory.of_isPrefix List.nil_prefix

theorem IsPlain.start (plain : machine.IsPlain) (path : Path) :
    machine.tree.IsDirectoryAt (machine.start path) := by
  rw [Machine.start]
  split
  · exact plain.root
  · exact plain.workingDirectory

theorem IsPlain.isProper (plain : machine.IsPlain) (present : (machine.tree.get? place).isSome) :
    ∀ name ∈ place, name.IsProper := by
  obtain ⟨sub, found⟩ := Option.isSome_iff_exists.mp present
  exact (plain.contents.of_get? found).1

theorem locate_eq_ok_iff :
    machine.locate followLast path = .ok final ↔
      ('\x00' ∉ path ∧ path ≠ [] ∧ Text.size path ≤ Path.sizeLimit) ∧
        follow machine.tree followLast linkLimit (machine.start path) (Path.steps path) = .ok final := by
  rw [locate]
  by_cases nul : '\x00' ∈ path
  · simp [nul]
  by_cases empty : path = []
  · simp [empty]
  by_cases long : Path.sizeLimit < Text.size path
  · simp [nul, empty, long, Nat.not_le.mpr long]
  · simp [nul, empty, long, Nat.not_lt.mp long]

theorem IsPlain.locate_eq_ok_iff (plain : machine.IsPlain) :
    machine.locate followLast path = .ok final ↔
      ('\x00' ∉ path ∧ path ≠ [] ∧ Text.size path ≤ Path.sizeLimit) ∧
        Passable machine.tree (machine.start path) (Path.steps path) ∧
        (machine.tree.get? final).isSome ∧
        final = Place.resolve (machine.start path) (Path.steps path) := by
  rw [Machine.locate_eq_ok_iff, follow_eq_ok_iff plain.contents (plain.start path).isSome]

/-- What names lead through is there, so that each of them is a proper one. -/
theorem IsPlain.isProper_of_passable (plain : machine.IsPlain)
    (passable : Passable machine.tree place names)
    (present : (machine.tree.get? (Place.resolve place names)).isSome) :
    ∀ name ∈ names, name = ['.'] ∨ name = ['.', '.'] ∨ name.IsProper := by
  induction names generalizing place with
  | nil => simp
  | cons name rest ih =>
      obtain ⟨directory, passable⟩ := passable
      refine List.forall_mem_cons.mpr ⟨?_, ih passable present⟩
      by_cases dot : name = ['.']
      · exact .inl dot
      by_cases up : name = ['.', '.']
      · exact .inr (.inl up)
      · have entered := isSome_of_passable passable present
        rw [Place.enter_of_ne dot up] at entered
        exact .inr (.inr (plain.isProper entered name (by simp)))

theorem IsPlain.status_of_locate (plain : machine.IsPlain)
    (located : machine.locate true path = .ok place) :
    ∃ status, machine.status path = .ok status ∧
      (status.isDirectory ↔ machine.tree.IsDirectoryAt place) := by
  obtain ⟨_, _, present, _⟩ := plain.locate_eq_ok_iff.mp located
  obtain ⟨sub, found⟩ := Option.isSome_iff_exists.mp present
  have files := (plain.contents.of_get? found).2
  rw [Machine.status, node_eq_ok_iff.mpr ⟨place, located, found⟩, Tree.IsDirectoryAt, found]
  cases sub with
  | directory entries => exact ⟨_, rfl, by simp [Tree.isDirectory]⟩
  | leaf value =>
      cases value with
      | file content => exact ⟨_, rfl, by simp [Tree.isDirectory]⟩
      | link target => exact files.elim

theorem status_of_locate_eq_error {reason : IoError}
    (located : machine.locate true path = .error reason) : machine.status path = .error reason := by
  rw [Machine.status, node, located]
  rfl

theorem IsPlain.pathExists_iff (plain : machine.IsPlain) :
    Id.run (machine.host.pathExists path) = true ↔
      ∃ place, machine.locate true path = .ok place := by
  change (machine.status path).toBool = true ↔ _
  cases located : machine.locate true path with
  | error reason =>
      rw [status_of_locate_eq_error located]
      simp [Except.toBool]
  | ok place =>
      obtain ⟨status, reached, _⟩ := plain.status_of_locate located
      rw [reached]
      simp [Except.toBool]

theorem isDirectory_host (machine : Machine) (path : Path) :
    Id.run (machine.host.isDirectory path) =
      (machine.status path).toOption.any (·.isDirectory) := by
  have asked : machine.host.status path = machine.status path := rfl
  simp only [Host.isDirectory, asked, bind, pure, Id.run]
  cases machine.status path <;> rfl

theorem IsPlain.isDirectory_iff (plain : machine.IsPlain) :
    Id.run (machine.host.isDirectory path) = true ↔
      ∃ place, machine.locate true path = .ok place ∧ machine.tree.IsDirectoryAt place := by
  rw [isDirectory_host]
  cases located : machine.locate true path with
  | error reason =>
      rw [status_of_locate_eq_error located]
      simp [Except.toOption]
  | ok place =>
      obtain ⟨status, reached, same⟩ := plain.status_of_locate located
      rw [reached]
      simpa [Except.toOption] using same

end Machine

end TrackerLinks
