import TrackerLinks.Proofs.Repository.Search

/-! The repository that a path is taken to belong to on a machine without links. The search goes up
the names of the path as they are spelled, so that it may find a directory that the path has left
through `..`, but it passes by no repository that the path is in. -/

namespace TrackerLinks.Machine

variable {machine : Machine} {path : Path} {place root : Place}

/-- The innermost marked directory that a place is in. -/
structure IsRootOf (machine : Machine) (place root : Place) : Prop where
  isPrefix : root <+: place
  isMarked : machine.IsMarked root
  nearest : ∀ other, other <+: place → machine.IsMarked other → other <+: root

instance (machine : Machine) (place root : Place) : Decidable (machine.IsRootOf place root) :=
  decidable_of_iff
    (root <+: place ∧ machine.IsMarked root ∧
      ∀ other ∈ place.inits, machine.IsMarked other → other <+: root)
    ⟨fun ⟨isPrefix, isMarked, nearest⟩ =>
      ⟨isPrefix, isMarked, fun other above => nearest other ((List.mem_inits _ _).mpr above)⟩,
      fun h => ⟨h.isPrefix, h.isMarked, fun other above =>
        h.nearest other ((List.mem_inits _ _).mp above)⟩⟩

/-- The directory in which the origin is read for a path. -/
def rootPlace? (machine : Machine) (path : Path) : Option Place :=
  (Id.run (Repository.rootAbove? machine.host
    (Id.run (Repository.startDirectory machine.host path)))).bind fun spelled =>
      (machine.locate true spelled).toOption

/-- The places that the search comes through. -/
def trail (names : List Name) : List Place :=
  (Path.lessening names).map (Place.resolve [])

theorem trail_concat (names : List Name) (name : Name) :
    trail (names ++ [name]) = Place.resolve [] (names ++ [name]) :: trail names := by
  rw [trail, Path.lessening_concat]
  rfl

/-- The search comes through each directory that the last place is in, and only through places
below it before. -/
theorem exists_trail_eq_append {names : List Name} (above : place <+: Place.resolve [] names) :
    ∃ inner outer, trail names = inner ++ place :: outer ∧ ∀ other ∈ inner, place <+: other := by
  -- By the last name, as that is where the search begins.
  induction names using List.reverseRecOn with
  | nil =>
      obtain rfl := List.prefix_nil.mp above
      exact ⟨[], [], rfl, by simp⟩
  | append_singleton names name ih =>
      rw [trail_concat]
      by_cases last : place = Place.resolve [] (names ++ [name])
      · rw [← last]
        exact ⟨[], _, rfl, by simp⟩
      have earlier : place <+: Place.resolve [] names := by
        rw [Place.resolve_append, Place.resolve_cons, Place.resolve_nil] at above last
        exact Place.isPrefix_of_isPrefix_enter above last
      obtain ⟨inner, outer, split, below⟩ := ih earlier
      refine ⟨Place.resolve [] (names ++ [name]) :: inner, outer, ?_, ?_⟩
      · rw [split, List.cons_append]
      · exact List.forall_mem_cons.mpr ⟨above, below⟩

/-- The search passes by no marked directory that the last place is in. -/
theorem exists_find?_trail {names : List Name} (above : place <+: Place.resolve [] names)
    (marked : machine.IsMarked place) :
    ∃ root, (trail names).find? (fun place => machine.IsMarked place) = some root ∧
      place <+: root := by
  obtain ⟨inner, outer, split, below⟩ := exists_trail_eq_append above
  rw [split, List.find?_append]
  cases found : inner.find? fun place => machine.IsMarked place with
  | none =>
      refine ⟨place, ?_, List.prefix_rfl⟩
      rw [Option.none_or, List.find?_cons_of_pos (by simpa using marked)]
  | some root => exact ⟨root, rfl, below root (List.mem_of_find?_eq_some found)⟩

theorem isPrefix_of_mem_trail {names : List Name}
    (forward : ∀ name ∈ names, name ≠ ['.'] ∧ name ≠ ['.', '.']) (member : place ∈ trail names) :
    place <+: Place.resolve [] names := by
  obtain ⟨front, above, rfl⟩ := List.mem_map.mp member
  rw [Path.mem_lessening_iff] at above
  rw [Place.resolve_of_forall_ne forward,
    Place.resolve_of_forall_ne fun name member => forward name (above.subset member)]
  exact above

theorem rootPlace?_of_upright {start : Path} (plain : machine.IsPlain) (upright : machine.IsUpright start)
    (starts : Id.run (Repository.startDirectory machine.host path) = start) :
    machine.rootPlace? path =
      (trail (Path.names start)).find? fun place => machine.IsMarked place := by
  have visited : (trail (Path.names start)).find? (fun place => machine.IsMarked place) =
      ((Path.ancestors start).find? fun base =>
        machine.IsMarked (Place.resolve [] (Path.names base))).map
          fun base => Place.resolve [] (Path.names base) := by
    rw [trail, ← Path.map_names_ancestors upright.isAbsolute, List.map_map, List.find?_map]
    rfl
  rw [visited, rootPlace?, starts, rootAbove?_eq plain upright]
  cases found : (Path.ancestors start).find?
      fun base => machine.IsMarked (Place.resolve [] (Path.names base)) with
  | none => rfl
  | some base =>
      have member := List.mem_of_find?_eq_some found
      rw [Option.bind_some, (upright.of_mem_ancestors member).locate_eq plain]
      rfl

/-- Without `..` in the path, all names that the search goes up by lead further down. -/
theorem IsPlain.forward_of_straight (plain : machine.IsPlain)
    (straight : ['.', '.'] ∉ Path.names path) :
    ∀ name ∈ machine.spelledNames path, name ≠ ['.'] ∧ name ≠ ['.', '.'] := by
  intro name member
  rcases List.mem_append.mp (spelledNames_subset machine path member) with before | inside
  · have isProper := plain.isProper (plain.start path).isSome name before
    exact ⟨isProper.ne_dot, isProper.ne_up⟩
  · exact ⟨(Path.isStep_of_mem_names inside).ne_dot, fun up => straight (up ▸ inside)⟩

theorem ofPath_of_rootPlace?_eq_none {start : Path} (plain : machine.IsPlain)
    (upright : machine.IsUpright start)
    (starts : Id.run (Repository.startDirectory machine.host path) = start)
    (absent : machine.rootPlace? path = none) :
    Repository.ofPath machine.host path = .error (.noRepositoryFound start) := by
  rw [rootPlace?, starts] at absent
  simp only [Id.run] at starts absent
  cases found : Repository.rootAbove? machine.host start with
  | none =>
      simp only [Repository.ofPath, starts, found, bind, pure]
  | some base =>
      have searched := rootAbove?_eq plain upright
      simp only [Id.run, found] at searched
      have member := List.mem_of_find?_eq_some searched.symm
      rw [found, Option.bind_some, (upright.of_mem_ancestors member).locate_eq plain] at absent
      cases absent

theorem ofPath_of_rootPlace?_eq_some (found : machine.rootPlace? path = some root) :
    ∃ spelled, machine.locate true spelled = .ok root ∧
      Repository.ofPath machine.host path = Repository.atRoot machine.host spelled := by
  obtain ⟨spelled, above, reached⟩ := Option.bind_eq_some_iff.mp found
  cases located : machine.locate true spelled with
  | error reason =>
      rw [located] at reached
      cases reached
  | ok place =>
      rw [located] at reached
      cases reached
      refine ⟨spelled, located, ?_⟩
      simp only [Id.run] at above
      simp only [Repository.ofPath, above, bind]

/-- The search goes by the spelling of the path alone. -/
theorem IsPlain.rootPlace?_eq_find? (plain : machine.IsPlain)
    (traversable : machine.IsTraversable path) :
    machine.rootPlace? path =
      (trail (machine.spelledNames path)).find? fun place => machine.IsMarked place := by
  obtain ⟨start, starts, upright, _, spelled⟩ := plain.startDirectory_upright traversable
  rw [rootPlace?_of_upright plain upright starts, spelled]

theorem IsPlain.ofPath?_of_find? (plain : machine.IsPlain) (traversable : machine.IsTraversable path)
    (found : (trail (machine.spelledNames path)).find? (fun place => machine.IsMarked place) =
      some root)
    {url : Text} (read : (machine.origin root).url = .ok url) :
    Repository.ofPath? machine.host path = Repository.ofRemoteUrl? url := by
  rw [← plain.rootPlace?_eq_find? traversable] at found
  obtain ⟨spelled, located, outcome⟩ := ofPath_of_rootPlace?_eq_some found
  have origin : machine.host.origin spelled = .ok url := by
    simp only [host, located, OriginReading.outcome, read, Except.mapError]
  simp only [Repository.ofPath?, outcome, Repository.atRoot, origin, bind, pure]
  cases Repository.ofRemoteUrl? url <;> rfl

/-- The origin is read in a marked directory that is below every marked directory the path is in. If
the path is in that directory itself, it is therefore the nearest one, as it is bound to be when no
`..` is in the path. -/
theorem ofPath_of_traversable (plain : machine.IsPlain) (traversable : machine.IsTraversable path) :
    (machine.rootPlace? path = none →
      (∃ start, Repository.ofPath machine.host path = .error (.noRepositoryFound start)) ∧
        ∀ place, place <+: machine.containing path → ¬ machine.IsMarked place) ∧
    ∀ root, machine.rootPlace? path = some root →
      (∃ spelled, machine.locate true spelled = .ok root ∧
        Repository.ofPath machine.host path = Repository.atRoot machine.host spelled) ∧
      (∀ place, place <+: machine.containing path → machine.IsMarked place → place <+: root) ∧
      (machine.IsRootOf (machine.containing path) root ↔ root <+: machine.containing path) ∧
      (['.', '.'] ∉ Path.names path → machine.IsRootOf (machine.containing path) root) := by
  obtain ⟨start, starts, upright, resolved, spelled⟩ := plain.startDirectory_upright traversable
  have searched := plain.rootPlace?_eq_find? traversable
  rw [spelled] at resolved
  rw [← resolved]
  constructor
  · intro absent
    refine ⟨⟨start, ofPath_of_rootPlace?_eq_none plain upright starts absent⟩, ?_⟩
    intro place above marked
    obtain ⟨root, found, _⟩ := exists_find?_trail above marked
    rw [← searched, absent] at found
    cases found
  · intro root found
    have passed (place : Place) (above : place <+: Place.resolve [] (machine.spelledNames path))
        (marked : machine.IsMarked place) : place <+: root := by
      obtain ⟨root', found', below⟩ := exists_find?_trail above marked
      rw [← searched, found] at found'
      cases found'
      exact below
    have visited := found
    rw [searched] at visited
    have marked : machine.IsMarked root := by simpa using List.find?_some visited
    refine ⟨ofPath_of_rootPlace?_eq_some found, passed, ⟨IsRootOf.isPrefix, ?_⟩, ?_⟩
    · intro above
      exact ⟨above, marked, passed⟩
    · intro straight
      refine ⟨?_, marked, passed⟩
      exact isPrefix_of_mem_trail (plain.forward_of_straight straight)
        (List.mem_of_find?_eq_some visited)

/-- A repository in a repository, and a file next to the inner one. -/
def nested : Machine where
  tree := .directory
    [(".git".toList, .empty),
      ("p".toList, .directory
        [("x".toList, .directory [(".git".toList, .empty)]),
          ("y".toList, .directory [("f.rs".toList, .leaf (.file .empty))])])]
  workingDirectory := []
  origin place :=
    .printed (if place = [] then "https://github.com/o/outer" else "https://github.com/o/inner").toUTF8

theorem isPlain_nested : nested.IsPlain :=
  ⟨by decide, by decide⟩

theorem isTraversable_nested : nested.IsTraversable "p/x/../y/f.rs".toList :=
  ⟨by decide, by decide, by decide⟩

/-- The file is in the outer repository, but the origin is read in the inner one. -/
theorem not_isRootOf_nested :
    nested.rootPlace? "p/x/../y/f.rs".toList = some ["p".toList, "x".toList] ∧
      nested.containing "p/x/../y/f.rs".toList = ["p".toList, "y".toList] ∧
      nested.IsRootOf ["p".toList, "y".toList] [] ∧
      ¬ nested.IsRootOf ["p".toList, "y".toList] ["p".toList, "x".toList] := by
  refine ⟨?_, by decide, by decide, by decide⟩
  rw [isPlain_nested.rootPlace?_eq_find? isTraversable_nested]
  decide

/-- The directory of the inner repository is below that of the outer one, though not on the way to
the file. -/
theorem ofPath_of_traversable_nested :
    nested.IsPlain ∧ nested.IsTraversable "p/x/../y/f.rs".toList ∧
      (∃ spelled, nested.locate true spelled = .ok ["p".toList, "x".toList] ∧
        Repository.ofPath nested.host "p/x/../y/f.rs".toList =
          Repository.atRoot nested.host spelled) ∧
      ∀ place, place <+: nested.containing "p/x/../y/f.rs".toList → nested.IsMarked place →
        place <+: ["p".toList, "x".toList] := by
  have found : nested.rootPlace? "p/x/../y/f.rs".toList = some ["p".toList, "x".toList] := by
    rw [isPlain_nested.rootPlace?_eq_find? isTraversable_nested]
    decide
  obtain ⟨read, passed, _⟩ :=
    (ofPath_of_traversable isPlain_nested isTraversable_nested).2 _ found
  exact ⟨isPlain_nested, isTraversable_nested, read, passed⟩

end TrackerLinks.Machine
