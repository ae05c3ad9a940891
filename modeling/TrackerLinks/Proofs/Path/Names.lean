import TrackerLinks.Machine
import TrackerLinks.Proofs.Text.Pieces
import TrackerLinks.Walk

namespace TrackerLinks

variable {name : Name} {names : List Name} {base path : Path}

/-- A segment that leads somewhere, be it up. -/
structure Name.IsStep (name : Name) : Prop where
  ne_nil : name ≠ []
  ne_dot : name ≠ ['.']
  slash : '/' ∉ name

instance : DecidablePred Name.IsStep := fun name =>
  decidable_of_iff (name ≠ [] ∧ name ≠ ['.'] ∧ '/' ∉ name)
    ⟨fun ⟨ne_nil, ne_dot, slash⟩ => ⟨ne_nil, ne_dot, slash⟩,
      fun h => ⟨h.ne_nil, h.ne_dot, h.slash⟩⟩

namespace Path

theorem isTrivial_eq_false_iff : isTrivial name = false ↔ name ≠ [] ∧ name ≠ ['.'] := by
  simp [isTrivial]

/-- The segments that a path is resolved by, except for what a slash at its end asks. -/
def parts (path : Path) : List Name :=
  (Text.split '/' path).filter (!·.isEmpty)

theorem steps_of_endsWithSlash_eq_false (h : endsWithSlash path = false) :
    steps path = parts path := by
  rw [steps, h]
  exact List.append_nil _

/-- Apart from slashes, a path has no characters but those of its parts. -/
theorem exists_mem_parts_of_mem {c : Char} (member : c ∈ path) (ne_slash : c ≠ '/') :
    ∃ name ∈ parts path, c ∈ name := by
  rw [← Text.joined_split '/' path] at member
  rcases Text.eq_or_exists_of_mem_joined member with slash | ⟨segment, among, inside⟩
  · exact absurd slash ne_slash
  · refine ⟨segment, List.mem_filter.mpr ⟨among, ?_⟩, inside⟩
    simpa using List.ne_nil_of_mem inside

theorem steps_ne_nil (nonempty : path ≠ []) : steps path ≠ [] := by
  obtain ⟨front, c, rfl⟩ := (List.eq_nil_or_concat path).resolve_left nonempty
  rw [List.concat_eq_append]
  by_cases slash : c = '/'
  · have closed : endsWithSlash (front ++ [c]) := by simp [endsWithSlash, slash]
    rw [steps, closed]
    exact List.append_ne_nil_of_right_ne_nil _ (List.cons_ne_nil _ _)
  · have last : c ∈ front ++ [c] := by simp
    obtain ⟨name, member, _⟩ := exists_mem_parts_of_mem last slash
    exact List.append_ne_nil_of_left_ne_nil (List.ne_nil_of_mem member) _

theorem split_slash (path : Path) : Text.split '/' ('/' :: path) = [] :: Text.split '/' path :=
  Text.split_append_cons List.not_mem_nil path

theorem split_dot_slash (path : Path) :
    Text.split '/' ('.' :: '/' :: path) = ['.'] :: Text.split '/' path :=
  Text.split_append_cons (show '/' ∉ ['.'] by decide) path

theorem names_eq_filter_split (path : Path) :
    Path.names path = (Text.split '/' path).filter (!isTrivial ·) := by
  rw [Path.names, segments]
  unfold anchor
  split
  · rw [split_slash]
    rfl
  · rfl
  · rw [split_dot_slash]
    simp only [List.length_singleton, List.drop_succ_cons, List.drop_zero, split_slash]
    rfl
  · rfl

theorem isStep_of_mem_names (member : name ∈ Path.names path) : name.IsStep := by
  rw [names_eq_filter_split, List.mem_filter, Bool.not_eq_true', isTrivial_eq_false_iff] at member
  exact ⟨member.2.1, member.2.2, Text.not_mem_of_mem_split member.1⟩

theorem filter_names (isStep : ∀ name ∈ names, Name.IsStep name) :
    names.filter (!isTrivial ·) = names ∧ names.filter (!·.isEmpty) = names := by
  constructor
  · apply List.filter_eq_self.mpr
    intro name member
    rw [isTrivial_eq_false_iff.mpr ⟨(isStep name member).ne_nil, (isStep name member).ne_dot⟩]
    rfl
  · apply List.filter_eq_self.mpr
    intro name member
    simpa using (isStep name member).ne_nil

theorem isAbsolute_eq_false_of_isStep (isStep : name.IsStep) : isAbsolute name = false := by
  rw [isAbsolute, decide_eq_false_iff_not]
  intro head
  exact isStep.slash (List.mem_of_mem_head? head)

theorem join_of_isStep (isStep : name.IsStep) :
    join base name =
      if base.isEmpty || endsWithSlash base then base ++ name else base ++ '/' :: name := by
  rw [join, isAbsolute_eq_false_of_isStep isStep]
  rfl

theorem isAbsolute_join (isStep : name.IsStep) : isAbsolute (join base name) = isAbsolute base := by
  rw [join_of_isStep isStep]
  cases base with
  | nil => exact isAbsolute_eq_false_of_isStep isStep
  | cons c base => split <;> rfl

theorem endsWithSlash_join (isStep : name.IsStep) : endsWithSlash (join base name) = false := by
  have last (front : Path) : endsWithSlash (front ++ name) = false := by
    obtain ⟨front', c, rfl⟩ := (List.eq_nil_or_concat name).resolve_left isStep.ne_nil
    rw [List.concat_eq_append, endsWithSlash, decide_eq_false_iff_not, ← List.append_assoc,
      List.getLast?_concat]
    intro slash
    cases slash
    exact isStep.slash (by simp)
  rw [join_of_isStep isStep]
  split
  · exact last base
  · have whole : base ++ '/' :: name = (base ++ ['/']) ++ name := by simp
    rw [whole]
    exact last _

/-- A name that is joined on is the last segment, whether or not the path ends with a slash. -/
theorem filter_split_join (isStep : name.IsStep) {keep : Name → Bool} (empty : keep [] = false)
    (kept : keep name) :
    (Text.split '/' (join base name)).filter keep = (Text.split '/' base).filter keep ++ [name] := by
  have single : (Text.split '/' name).filter keep = [name] := by
    rw [Text.split_of_not_mem isStep.slash, List.filter_cons_of_pos kept, List.filter_nil]
  have slashed (front : Path) : (Text.split '/' (front ++ '/' :: name)).filter keep =
      (Text.split '/' front).filter keep ++ [name] := by
    rw [Text.split_append, List.filter_append, single]
  rw [join_of_isStep isStep]
  split
  · rename_i ends
    rcases Bool.or_eq_true_iff.mp ends with noBase | slash
    · obtain rfl := List.isEmpty_iff.mp noBase
      rw [List.nil_append, single, Text.split_nil, List.filter_cons_of_neg (by simp [empty])]
      rfl
    · obtain ⟨front, rfl⟩ := List.getLast?_eq_some_iff.mp (of_decide_eq_true slash)
      rw [List.append_assoc, List.singleton_append, slashed, Text.split_append, List.filter_append,
        Text.split_nil, List.filter_cons_of_neg (by simp [empty]), List.filter_nil, List.append_nil]
  · exact slashed base

theorem names_join (isStep : name.IsStep) : Path.names (join base name) = Path.names base ++ [name] := by
  rw [names_eq_filter_split, names_eq_filter_split, filter_split_join isStep rfl]
  rw [isTrivial_eq_false_iff.mpr ⟨isStep.ne_nil, isStep.ne_dot⟩]
  rfl

theorem parts_join (isStep : name.IsStep) : parts (join base name) = parts base ++ [name] := by
  rw [parts, parts, filter_split_join isStep rfl]
  simpa using isStep.ne_nil

theorem steps_join (isStep : name.IsStep) : steps (join base name) = parts base ++ [name] := by
  rw [steps_of_endsWithSlash_eq_false (endsWithSlash_join isStep), parts_join isStep]

theorem size_join_le (isStep : name.IsStep) :
    Text.size (join base name) ≤ Text.size base + Text.size name + 1 := by
  rw [join_of_isStep isStep]
  split
  · rw [Text.size_append]
    omega
  · rw [Text.size_append, Text.size_cons]
    have slash : '/'.utf8Size = 1 := rfl
    omega

/-- Apart from slashes and dots, a path has no characters but those of its names. -/
theorem exists_mem_names_of_mem {c : Char} (member : c ∈ path) (ne_slash : c ≠ '/')
    (ne_dot : c ≠ '.') : ∃ name ∈ Path.names path, c ∈ name := by
  rw [← Text.joined_split '/' path] at member
  rcases Text.eq_or_exists_of_mem_joined member with slash | ⟨segment, among, inside⟩
  · exact absurd slash ne_slash
  refine ⟨segment, ?_, inside⟩
  rw [names_eq_filter_split, List.mem_filter, Bool.not_eq_true', isTrivial_eq_false_iff]
  refine ⟨among, List.ne_nil_of_mem inside, ?_⟩
  rintro rfl
  exact ne_dot (List.mem_singleton.mp inside)

theorem below_cons (base : Path) (name : Name) (names : List Name) :
    base.below (name :: names) = (join base name).below names := rfl

theorem filter_split_below {keep : Name → Bool} (empty : keep [] = false)
    (isStep : ∀ name ∈ names, Name.IsStep name) (kept : ∀ name ∈ names, keep name) :
    (Text.split '/' (base.below names)).filter keep = (Text.split '/' base).filter keep ++ names := by
  induction names generalizing base with
  | nil => exact (List.append_nil _).symm
  | cons name names ih =>
      obtain ⟨first, later⟩ := List.forall_mem_cons.mp isStep
      obtain ⟨first_kept, later_kept⟩ := List.forall_mem_cons.mp kept
      rw [below_cons, ih later later_kept, filter_split_join first empty first_kept,
        List.append_assoc, List.singleton_append]

theorem names_below (isStep : ∀ name ∈ names, Name.IsStep name) :
    Path.names (base.below names) = Path.names base ++ names := by
  rw [names_eq_filter_split, names_eq_filter_split, filter_split_below rfl isStep]
  exact List.filter_eq_self.mp (filter_names isStep).1

theorem parts_below (isStep : ∀ name ∈ names, Name.IsStep name) :
    parts (base.below names) = parts base ++ names := by
  rw [parts, parts, filter_split_below rfl isStep]
  exact List.filter_eq_self.mp (filter_names isStep).2

theorem isAbsolute_below (isStep : ∀ name ∈ names, Name.IsStep name) :
    isAbsolute (base.below names) = isAbsolute base := by
  induction names generalizing base with
  | nil => rfl
  | cons name names ih =>
      obtain ⟨first, later⟩ := List.forall_mem_cons.mp isStep
      rw [below_cons, ih later, isAbsolute_join first]

theorem filter_split_join_nil {keep : Name → Bool} (empty : keep [] = false) :
    (Text.split '/' (join base [])).filter keep = (Text.split '/' base).filter keep := by
  have unrooted : isAbsolute [] = false := rfl
  rw [join, unrooted, if_neg Bool.false_ne_true]
  split
  · rw [List.append_nil]
  · rw [Text.split_append, List.filter_append, Text.split_nil,
      List.filter_cons_of_neg (by simp [empty]), List.filter_nil, List.append_nil]

theorem names_join_nil (base : Path) : Path.names (join base []) = Path.names base := by
  rw [names_eq_filter_split, names_eq_filter_split, filter_split_join_nil rfl]

theorem parts_join_nil (base : Path) : parts (join base []) = parts base := by
  rw [parts, parts, filter_split_join_nil rfl]

theorem isAbsolute_join_nil (nonempty : base ≠ []) : isAbsolute (join base []) = isAbsolute base := by
  obtain ⟨c, base, rfl⟩ := List.exists_cons_of_ne_nil nonempty
  have unrooted : isAbsolute [] = false := rfl
  rw [join, unrooted, if_neg Bool.false_ne_true]
  split <;> rfl

theorem joined_ne_nil (nonempty : names ≠ []) (isStep : ∀ name ∈ names, Name.IsStep name) :
    Text.joined ['/'] names ≠ [] := by
  obtain ⟨name, names, rfl⟩ := List.exists_cons_of_ne_nil nonempty
  have first := (isStep name List.mem_cons_self).ne_nil
  cases names with
  | nil => rwa [Text.joined_singleton]
  | cons next names =>
      rw [Text.joined_cons name (List.cons_ne_nil _ _)]
      simp

theorem isAbsolute_joined (isStep : ∀ name ∈ names, Name.IsStep name) :
    isAbsolute (Text.joined ['/'] names) = false := by
  cases names with
  | nil => rfl
  | cons name names =>
      have first := isStep name List.mem_cons_self
      obtain ⟨c, rest, rfl⟩ := List.exists_cons_of_ne_nil first.ne_nil
      have open_ : c ≠ '/' := fun slash => first.slash (slash ▸ List.mem_cons_self)
      cases names with
      | nil => simpa [isAbsolute] using open_
      | cons next names =>
          rw [Text.joined_cons _ (List.cons_ne_nil _ _)]
          simpa [isAbsolute] using open_

theorem below_eq (filled : base ≠ []) (unslashed : endsWithSlash base = false)
    (nonempty : names ≠ []) (isStep : ∀ name ∈ names, Name.IsStep name) :
    base.below names = base ++ '/' :: Text.joined ['/'] names := by
  induction names generalizing base with
  | nil => exact absurd rfl nonempty
  | cons name names ih =>
      have first := isStep name List.mem_cons_self
      have joined : join base name = base ++ '/' :: name := by
        rw [join_of_isStep first, unslashed, List.isEmpty_eq_false_iff.mpr filled]
        rfl
      cases names with
      | nil => rwa [Text.joined_singleton]
      | cons next names =>
          have later : below (join base name) (next :: names) =
              join base name ++ '/' :: Text.joined ['/'] (next :: names) :=
            ih (by simp [joined]) (endsWithSlash_join first) (List.cons_ne_nil _ _)
              (fun name member => isStep name (List.mem_cons_of_mem _ member))
          rw [Text.joined_cons name (List.cons_ne_nil _ _), below_cons, later, joined,
            List.append_assoc, List.cons_append]

theorem exists_join_eq_append (base : Path) :
    ∃ front, ∀ path, isAbsolute path = false → join base path = front ++ path := by
  by_cases closed : base.isEmpty || endsWithSlash base
  · refine ⟨base, fun path relative => ?_⟩
    rw [join, relative, if_neg Bool.false_ne_true, if_pos closed]
  · refine ⟨base ++ ['/'], fun path relative => ?_⟩
    rw [join, relative, if_neg Bool.false_ne_true, if_neg closed, List.append_assoc,
      List.singleton_append]

theorem below_eq_join (nonempty : names ≠ []) (isStep : ∀ name ∈ names, Name.IsStep name) :
    base.below names = join base (Text.joined ['/'] names) := by
  obtain ⟨name, rest, rfl⟩ := List.exists_cons_of_ne_nil nonempty
  obtain ⟨first, later⟩ := List.forall_mem_cons.mp isStep
  obtain ⟨front, joined⟩ := exists_join_eq_append base
  have start : join base name = front ++ name := joined name (isAbsolute_eq_false_of_isStep first)
  rw [below_cons, joined _ (isAbsolute_joined isStep)]
  cases rest with
  | nil => rwa [Text.joined_singleton]
  | cons next rest =>
      have filled : join base name ≠ [] := by
        rw [start]
        exact List.append_ne_nil_of_right_ne_nil front first.ne_nil
      rw [below_eq filled (endsWithSlash_join first) (List.cons_ne_nil _ _) later, start,
        Text.joined_cons name (List.cons_ne_nil _ _), List.append_assoc]

end Path

end TrackerLinks
