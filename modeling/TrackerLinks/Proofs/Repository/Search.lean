import TrackerLinks.Discovery
import TrackerLinks.Proofs.Machine.Follow
import TrackerLinks.Proofs.Path.Ancestors
import TrackerLinks.Proofs.Text.Occurrence

/-! What the search for a repository sees on a machine without links. It starts in the directory of
the path and asks of each directory that it comes to whether there is a marker in it. -/

namespace TrackerLinks.Machine

variable {machine : Machine} {path base : Path} {place : Place}

/-- The path under the working directory. -/
def full (machine : Machine) (path : Path) : Path :=
  (Path.absolute? (placePath machine.workingDirectory) path).getD path

/-- All that a path goes through are directories, and there is room for a marker after it. -/
structure IsTraversable (machine : Machine) (path : Path) : Prop where
  nonempty : path ≠ []
  passable : Passable machine.tree (machine.start path) (Path.names path)
  size_le : Text.size (machine.full path) + Text.size Repository.marker + 1 ≤ Path.sizeLimit

/-- The directory of a path: itself if it is one, and else the one that it stands in. -/
def containing (machine : Machine) (path : Path) : Place :=
  let place := Place.resolve (machine.start path) (Path.names path)
  if machine.tree.IsDirectoryAt place then place else place.dropLast

/-- The names that the search goes up by. -/
def spelledNames (machine : Machine) (path : Path) : List Name :=
  let names := machine.start path ++ Path.names path
  if machine.tree.IsDirectoryAt (Place.resolve (machine.start path) (Path.names path)) then names
  else names.dropLast

theorem spelledNames_subset (machine : Machine) (path : Path) :
    machine.spelledNames path ⊆ machine.start path ++ Path.names path := by
  rw [spelledNames]
  split
  · exact List.Subset.refl _
  · exact List.dropLast_subset _

def IsMarked (machine : Machine) (place : Place) : Prop :=
  (machine.tree.get? (place ++ [Repository.marker])).isSome

instance (machine : Machine) (place : Place) : Decidable (machine.IsMarked place) :=
  inferInstanceAs (Decidable (_ = true))

/-- An absolute path to a directory that can be searched for a marker. -/
structure IsUpright (machine : Machine) (base : Path) : Prop where
  isAbsolute : Path.isAbsolute base
  undotted : Path.parts base = Path.names base
  size_le : Text.size base + Text.size Repository.marker + 1 ≤ Path.sizeLimit
  passable : Passable machine.tree [] (Path.names base)
  isDirectory : machine.tree.IsDirectoryAt (Place.resolve [] (Path.names base))

theorem resolve_steps (undotted : Path.parts path = Path.names path) (place : Place) :
    Place.resolve place (Path.steps path) = Place.resolve place (Path.names path) := by
  rw [Path.steps, ← Path.parts, undotted]
  split
  · rw [Place.resolve_append]
    rfl
  · rw [List.append_nil]

theorem passable_steps (undotted : Path.parts path = Path.names path)
    (passable : Passable machine.tree place (Path.names path))
    (isDirectory : machine.tree.IsDirectoryAt (Place.resolve place (Path.names path))) :
    Passable machine.tree place (Path.steps path) := by
  rw [Path.steps, ← Path.parts, undotted]
  refine passable_append.mpr ⟨passable, ?_⟩
  split
  · exact ⟨isDirectory, trivial⟩
  · trivial

theorem isDirectoryAt_of_isPrefix {front names : List Name} (above : front <+: names)
    (passable : Passable machine.tree place names)
    (isDirectory : machine.tree.IsDirectoryAt (Place.resolve place names)) :
    Passable machine.tree place front ∧ machine.tree.IsDirectoryAt (Place.resolve place front) := by
  obtain ⟨back, rfl⟩ := above
  obtain ⟨first, second⟩ := passable_append.mp passable
  refine ⟨first, ?_⟩
  cases back with
  | nil => rwa [List.append_nil] at isDirectory
  | cons name back => exact second.1

theorem IsPlain.nul_not_mem (plain : machine.IsPlain)
    (passable : Passable machine.tree place (Path.names path))
    (present : (machine.tree.get? (Place.resolve place (Path.names path))).isSome) :
    '\x00' ∉ path := by
  intro nul
  obtain ⟨name, member, inside⟩ := Path.exists_mem_names_of_mem nul (by decide) (by decide)
  rcases plain.isProper_of_passable passable present name member with rfl | rfl | isProper
  · exact absurd inside (by decide)
  · exact absurd inside (by decide)
  · exact isProper.nul inside

namespace IsUpright

theorem start_eq (upright : machine.IsUpright base) : machine.start base = [] := by
  rw [Machine.start, if_pos upright.isAbsolute]

theorem ne_nil (upright : machine.IsUpright base) : base ≠ [] := by
  rintro rfl
  exact Bool.false_ne_true upright.isAbsolute

theorem nul_not_mem (upright : machine.IsUpright base) (plain : machine.IsPlain) :
    '\x00' ∉ base :=
  plain.nul_not_mem upright.passable upright.isDirectory.isSome

theorem locate_eq (upright : machine.IsUpright base) (plain : machine.IsPlain) :
    machine.locate true base = .ok (Place.resolve [] (Path.names base)) := by
  rw [plain.locate_eq_ok_iff, upright.start_eq, resolve_steps upright.undotted]
  refine ⟨⟨upright.nul_not_mem plain, upright.ne_nil, ?_⟩, ?_, upright.isDirectory.isSome, rfl⟩
  · have := upright.size_le
    omega
  · exact passable_steps upright.undotted upright.passable upright.isDirectory

theorem of_mem_ancestors_of_isDirectory (isAbsolute : Path.isAbsolute path)
    (undotted : Path.parts path = Path.names path)
    (size_le : Text.size path + Text.size Repository.marker + 1 ≤ Path.sizeLimit)
    (member : base ∈ Path.ancestors path) (passable : Passable machine.tree [] (Path.names base))
    (isDirectory : machine.tree.IsDirectoryAt (Place.resolve [] (Path.names base))) :
    machine.IsUpright base := by
  obtain ⟨isAbsolute, isPrefix, undotted⟩ := Path.of_mem_ancestors isAbsolute undotted member
  have shorter := Text.size_le_of_isPrefix isPrefix
  exact ⟨isAbsolute, undotted, by omega, passable, isDirectory⟩

theorem of_mem_ancestors (upright : machine.IsUpright path)
    (member : base ∈ Path.ancestors path) : machine.IsUpright base := by
  have fewer : Path.names base <+: Path.names path := by
    rw [← Path.mem_lessening_iff, ← Path.map_names_ancestors upright.isAbsolute]
    exact List.mem_map_of_mem member
  obtain ⟨passable, isDirectory⟩ :=
    isDirectoryAt_of_isPrefix fewer upright.passable upright.isDirectory
  exact of_mem_ancestors_of_isDirectory upright.isAbsolute upright.undotted upright.size_le member
    passable isDirectory

end IsUpright

theorem isStep_marker : Repository.marker.IsStep :=
  ⟨by decide, by decide, by decide⟩

theorem IsUpright.pathExists_marker_iff (upright : machine.IsUpright base)
    (plain : machine.IsPlain) :
    Id.run (machine.host.pathExists (Path.join base Repository.marker)) = true ↔
      machine.IsMarked (Place.resolve [] (Path.names base)) := by
  have rooted : Path.isAbsolute (Path.join base Repository.marker) := by
    rw [Path.isAbsolute_join isStep_marker, upright.isAbsolute]
  have start : machine.start (Path.join base Repository.marker) = [] := if_pos rooted
  have names : Path.names (Path.join base Repository.marker) =
      Path.names base ++ [Repository.marker] := Path.names_join isStep_marker
  have steps : Path.steps (Path.join base Repository.marker) =
      Path.names base ++ [Repository.marker] := by
    rw [Path.steps_join isStep_marker, upright.undotted]
  have resolved : Place.resolve [] (Path.names base ++ [Repository.marker]) =
      Place.resolve [] (Path.names base) ++ [Repository.marker] := Place.resolve_append _ _ _
  have passable : Passable machine.tree [] (Path.names base ++ [Repository.marker]) :=
    passable_append.mpr ⟨upright.passable, upright.isDirectory, trivial⟩
  rw [plain.pathExists_iff]
  simp only [plain.locate_eq_ok_iff, start, steps, resolved]
  constructor
  · rintro ⟨place, _, _, present, rfl⟩
    exact present
  · intro marked
    refine ⟨_, ⟨?_, ?_, ?_⟩, passable, marked, rfl⟩
    · rw [← names] at passable
      refine plain.nul_not_mem passable ?_
      rw [names, resolved]
      exact marked
    · intro empty
      rw [empty] at rooted
      cases rooted
    · exact (Path.size_join_le isStep_marker).trans upright.size_le

theorem rootAbove?_eq {start : Path} (plain : machine.IsPlain) (upright : machine.IsUpright start) :
    Id.run (Repository.rootAbove? machine.host start) =
      (Path.ancestors start).find? fun base =>
        machine.IsMarked (Place.resolve [] (Path.names base)) := by
  have searched : Id.run (Repository.rootAbove? machine.host start) =
      (Path.ancestors start).find? fun base =>
        Id.run (machine.host.pathExists (Path.join base Repository.marker)) :=
    List.findM?_pure _ _
  rw [searched, ← List.head?_filter, ← List.head?_filter]
  congr 1
  apply List.filter_congr
  intro base member
  rw [Bool.eq_iff_iff, (upright.of_mem_ancestors member).pathExists_marker_iff plain,
    decide_eq_true_iff]

theorem IsPlain.passable_of_isDirectoryAt (plain : machine.IsPlain) (front back : Place)
    (isDirectory : machine.tree.IsDirectoryAt (front ++ back)) :
    Passable machine.tree front back ∧ Place.resolve front back = front ++ back := by
  have proper := plain.isProper isDirectory.isSome
  induction back generalizing front with
  | nil => exact ⟨trivial, (List.append_nil front).symm⟩
  | cons name back ih =>
      have isProper := proper name (by simp)
      have whole : front ++ name :: back = (front ++ [name]) ++ back := by simp
      rw [Passable, Place.resolve_cons, Place.enter_of_ne isProper.ne_dot isProper.ne_up, whole]
      rw [whole] at isDirectory proper
      obtain ⟨passable, resolved⟩ := ih (front ++ [name]) isDirectory proper
      exact ⟨⟨isDirectory.of_isPrefix (by simp), passable⟩, resolved⟩

theorem IsPlain.full_spelled (plain : machine.IsPlain)
    (traversable : machine.IsTraversable path) :
    (Path.isAbsolute (machine.full path) ∧
      Path.parts (machine.full path) = Path.names (machine.full path)) ∧
      Path.names (machine.full path) = machine.start path ++ Path.names path ∧
      Passable machine.tree [] (Path.names (machine.full path)) ∧
      Place.resolve [] (Path.names (machine.full path)) =
        Place.resolve (machine.start path) (Path.names path) := by
  have isStep (name : Name) (member : name ∈ machine.workingDirectory) : name.IsStep :=
    (plain.isProper plain.workingDirectory.isSome name member).toIsStep
  obtain ⟨full, spelled, isAbsolute, undotted, names⟩ := Path.exists_absolute? isStep traversable.nonempty
  have start : Path.names full = machine.start path ++ Path.names path := names
  obtain ⟨first, resolved⟩ := plain.passable_of_isDirectoryAt [] (machine.start path)
    (plain.start path)
  rw [List.nil_append] at resolved
  rw [Machine.full, spelled, Option.getD_some]
  refine ⟨⟨isAbsolute, undotted⟩, start, ?_, ?_⟩
  · rw [start, passable_append, resolved]
    exact ⟨first, traversable.passable⟩
  · rw [start, Place.resolve_append, resolved]

theorem IsPlain.isDirectory_full_iff (plain : machine.IsPlain) (traversable : machine.IsTraversable path) :
    Id.run (machine.host.isDirectory (machine.full path)) = true ↔
      machine.tree.IsDirectoryAt (Place.resolve (machine.start path) (Path.names path)) := by
  obtain ⟨⟨isAbsolute, undotted⟩, _, passable', resolved⟩ := plain.full_spelled traversable
  rw [plain.isDirectory_iff, ← resolved]
  constructor
  · rintro ⟨place, located, isDirectory⟩
    obtain ⟨_, _, _, rfl⟩ := plain.locate_eq_ok_iff.mp located
    rwa [resolve_steps undotted, Machine.start, if_pos isAbsolute] at isDirectory
  · intro isDirectory
    have upright : machine.IsUpright (machine.full path) :=
      ⟨isAbsolute, undotted, traversable.size_le, passable', isDirectory⟩
    exact ⟨_, upright.locate_eq plain, isDirectory⟩

theorem IsPlain.startDirectory_upright (plain : machine.IsPlain) (traversable : machine.IsTraversable path) :
    ∃ start, Id.run (Repository.startDirectory machine.host path) = start ∧
      machine.IsUpright start ∧
      Place.resolve [] (Path.names start) = machine.containing path ∧
      Path.names start = machine.spelledNames path := by
  obtain ⟨⟨isAbsolute, undotted⟩, names, passable', resolved⟩ :=
    plain.full_spelled traversable
  have asked := plain.isDirectory_full_iff traversable
  have starts : Id.run (Repository.startDirectory machine.host path) =
      if Id.run (machine.host.isDirectory (machine.full path)) then machine.full path
      else (Path.parent? (machine.full path)).getD ".".toList := rfl
  rw [starts, containing, spelledNames]
  by_cases isDirectory :
      machine.tree.IsDirectoryAt (Place.resolve (machine.start path) (Path.names path))
  · rw [if_pos (asked.mpr isDirectory), if_pos isDirectory, if_pos isDirectory]
    refine ⟨_, rfl, ⟨isAbsolute, undotted, traversable.size_le, passable', ?_⟩, resolved, names⟩
    rwa [resolved]
  · rw [if_neg (mt asked.mp isDirectory), if_neg isDirectory, if_neg isDirectory]
    rw [← resolved] at isDirectory ⊢
    rw [← names]
    rcases List.eq_nil_or_concat (Path.names (machine.full path)) with none | ⟨front, name, some⟩
    · rw [none] at isDirectory
      exact absurd plain.root isDirectory
    rw [List.concat_eq_append] at some
    obtain ⟨parent, member, found, outer⟩ := Path.exists_parent? isAbsolute some
    rw [some] at isDirectory passable' ⊢
    obtain ⟨before, at_parent, _⟩ := passable_append.mp passable'
    rw [Place.resolve_append] at isDirectory ⊢
    rw [Place.resolve_cons, Place.resolve_nil, Place.dropLast_enter at_parent isDirectory, found,
      Option.getD_some, ← outer]
    rw [← outer] at before at_parent
    exact ⟨parent, rfl,
      IsUpright.of_mem_ancestors_of_isDirectory isAbsolute undotted traversable.size_le member
        before at_parent,
      rfl, List.dropLast_concat.symm⟩

end TrackerLinks.Machine
