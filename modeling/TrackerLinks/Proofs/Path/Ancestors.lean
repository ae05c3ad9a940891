import Mathlib.Data.List.Infix
import TrackerLinks.Proofs.Path.Names

namespace TrackerLinks.Path

variable {name : Name} {names outer front : List Name} {base path : Path}

/-- The names, then the names without the last of them, and so on up to none. -/
def lessening (names : List Name) : List (List Name) :=
  names.inits.reverse

theorem lessening_concat (names : List Name) (name : Name) :
    lessening (names ++ [name]) = (names ++ [name]) :: lessening names := by
  rw [lessening, List.inits_append]
  simp [lessening]

theorem mem_lessening_iff : front ∈ lessening names ↔ front <+: names := by
  rw [lessening, List.mem_reverse, List.mem_inits]

theorem lessening_eq_cons (names : List Name) :
    lessening names = names :: (lessening names).tail := by
  cases names using List.reverseRecOn with
  | nil => rfl
  | append_singleton names name => rw [lessening_concat]; rfl

theorem filter_reverse_dropWhile (outer : List Name) :
    ((outer.dropWhile isTrivial).reverse).filter (!isTrivial ·) =
      outer.reverse.filter (!isTrivial ·) := by
  induction outer with
  | nil => rfl
  | cons segment outer ih =>
      by_cases trivial : isTrivial segment
      · rw [List.dropWhile_cons_of_pos trivial, ih, List.reverse_cons, List.filter_append]
        simp [trivial]
      · rw [List.dropWhile_cons_of_neg trivial]

theorem names_slash_joined (slashless : ∀ segment ∈ names, '/' ∉ segment) :
    Path.names ('/' :: Text.joined ['/'] names) = names.filter (!isTrivial ·) := by
  rw [names_eq_filter_split, split_slash]
  cases names with
  | nil => rfl
  | cons first more =>
      rw [Text.split_joined (List.cons_ne_nil _ _) slashless]
      rfl

theorem mem_above (member : path ∈ above ['/'] outer) :
    ∃ front, front <+: outer.reverse ∧ path = '/' :: Text.joined ['/'] front := by
  induction outer with
  | nil => cases member
  | cons segment outer ih =>
      rw [above] at member
      have further : outer.reverse <+: (segment :: outer).reverse := by
        rw [List.reverse_cons]
        exact List.prefix_append _ _
      split at member
      · obtain ⟨front, isPrefix, spelled⟩ := ih member
        exact ⟨front, isPrefix.trans further, spelled⟩
      · rcases List.mem_cons.mp member with rfl | member
        · refine ⟨_, List.IsPrefix.trans ?_ further, rfl⟩
          exact List.reverse_prefix.mpr (List.dropWhile_suffix _)
        · obtain ⟨front, isPrefix, spelled⟩ := ih member
          exact ⟨front, isPrefix.trans further, spelled⟩

theorem map_names_above (slashless : ∀ segment ∈ outer, '/' ∉ segment) :
    (above ['/'] outer).map Path.names =
      (lessening (outer.reverse.filter (!isTrivial ·))).tail := by
  induction outer with
  | nil => rfl
  | cons segment outer ih =>
      obtain ⟨_, later⟩ := List.forall_mem_cons.mp slashless
      rw [above, List.reverse_cons, List.filter_append]
      split
      · rename_i trivial
        rw [ih later]
        simp [trivial]
      · rename_i kept
        have slashless' : ∀ segment ∈ (outer.dropWhile isTrivial).reverse, '/' ∉ segment := by
          intro segment member
          rw [List.mem_reverse] at member
          exact later segment ((List.dropWhile_suffix _).subset member)
        have single : [segment].filter (!isTrivial ·) = [segment] := by simp [kept]
        rw [single, lessening_concat, List.tail_cons, lessening_eq_cons, List.map_cons, ih later,
          List.singleton_append, names_slash_joined slashless', filter_reverse_dropWhile]

theorem split_of_isAbsolute (absolute : isAbsolute path) :
    Text.split '/' path = [] :: segments path := by
  obtain ⟨rest, rfl⟩ : ∃ rest, path = '/' :: rest := by
    rw [isAbsolute, decide_eq_true_eq, List.head?_eq_some_iff] at absolute
    exact absolute
  exact split_slash rest

theorem segments_ne_nil (path : Path) : segments path ≠ [] :=
  Text.split_ne_nil _ _

theorem eq_slash_joined (absolute : isAbsolute path) :
    path = '/' :: Text.joined ['/'] (segments path) := by
  rw [← List.nil_append ('/' :: _), ← Text.joined_cons [] (segments_ne_nil path),
    ← split_of_isAbsolute absolute, Text.joined_split]

theorem anchor_of_isAbsolute (absolute : isAbsolute path) : anchor path = ['/'] := by
  rw [eq_slash_joined absolute]
  rfl

theorem map_names_ancestors (absolute : isAbsolute path) :
    (ancestors path).map Path.names = lessening (Path.names path) := by
  rw [ancestors, List.map_cons, anchor_of_isAbsolute absolute, map_names_above,
    List.reverse_reverse, ← Path.names, ← lessening_eq_cons]
  intro segment member
  rw [List.mem_reverse] at member
  exact Text.not_mem_of_mem_split member

theorem exists_parent? (absolute : isAbsolute path) (spelled : Path.names path = front ++ [name]) :
    ∃ parent ∈ ancestors path, parent? path = some parent ∧ Path.names parent = front := by
  have second : ((ancestors path).map Path.names)[1]? = some front := by
    rw [map_names_ancestors absolute, spelled, lessening_concat, lessening_eq_cons front]
    rfl
  rw [List.getElem?_map, Option.map_eq_some_iff] at second
  obtain ⟨parent, found, names⟩ := second
  exact ⟨parent, List.mem_of_getElem? found, found, names⟩

theorem parts_eq_names_iff : parts path = Path.names path ↔ ['.'] ∉ Text.split '/' path := by
  rw [parts, names_eq_filter_split]
  constructor
  · intro same dot
    have kept : ['.'] ∈ (Text.split '/' path).filter (!·.isEmpty) :=
      List.mem_filter.mpr ⟨dot, rfl⟩
    rw [same, List.mem_filter] at kept
    cases kept.2
  · intro undotted
    apply List.filter_congr
    intro segment member
    have ne_dot : segment ≠ ['.'] := fun dot => undotted (dot ▸ member)
    simp [isTrivial, ne_dot]

theorem of_mem_ancestors (absolute : isAbsolute path) (undotted : parts path = Path.names path)
    (member : base ∈ ancestors path) :
    isAbsolute base ∧ base <+: path ∧ parts base = Path.names base := by
  rw [parts_eq_names_iff] at undotted ⊢
  rw [ancestors, anchor_of_isAbsolute absolute] at member
  rcases List.mem_cons.mp member with rfl | member
  · exact ⟨absolute, List.prefix_rfl, undotted⟩
  obtain ⟨front, isPrefix, rfl⟩ := mem_above member
  rw [List.reverse_reverse] at isPrefix
  refine ⟨rfl, ?_, ?_⟩
  · rw [eq_slash_joined absolute]
    exact List.cons_prefix_cons.mpr ⟨rfl, Text.joined_isPrefix isPrefix⟩
  · intro dot
    rw [split_slash] at dot
    cases front with
    | nil => exact absurd dot (by decide)
    | cons first more =>
        rw [Text.split_joined (List.cons_ne_nil _ _)
          (fun segment member => Text.not_mem_of_mem_split (isPrefix.subset member))] at dot
        apply undotted
        rw [split_of_isAbsolute absolute]
        exact List.mem_cons_of_mem _ (isPrefix.subset (List.mem_of_ne_of_mem (by simp) dot))

theorem placePath_spelled (isStep : ∀ name ∈ names, Name.IsStep name) :
    Path.names (Machine.placePath names) = names ∧
      parts (Machine.placePath names) = Path.names (Machine.placePath names) := by
  have slashless : ∀ name ∈ names, '/' ∉ name := fun name member => (isStep name member).slash
  have spelled : Path.names (Machine.placePath names) = names := by
    rw [Machine.placePath, names_slash_joined slashless, (filter_names isStep).1]
  refine ⟨spelled, ?_⟩
  rw [spelled, parts, Machine.placePath, split_slash]
  cases names with
  | nil => rfl
  | cons first more =>
      rw [Text.split_joined (List.cons_ne_nil _ _) slashless, List.filter_cons_of_neg (by simp)]
      exact (filter_names isStep).2

theorem exists_absolute?_below (isStep : ∀ name ∈ names, Name.IsStep name) (nonempty : path ≠ []) :
    ∃ base : Path, isAbsolute base ∧ parts base = Path.names base ∧
      Path.names base = (if isAbsolute path then [] else names) ∧
      absolute? (Machine.placePath names) path =
        some (if endsWithSlash path then join (base.below (Path.names path)) []
          else base.below (Path.names path)) := by
  have filled : path.isEmpty = false := List.isEmpty_eq_false_iff.mpr nonempty
  cases absolute : isAbsolute path with
  | false =>
      obtain ⟨spelled, undotted⟩ := placePath_spelled isStep
      refine ⟨Machine.placePath names, rfl, undotted, spelled, ?_⟩
      rw [absolute?, filled, absolute]
      rfl
  | true =>
      have spelled : absolute? (Machine.placePath names) path =
          let base : Path := if "//".toList.isPrefixOf path && !"///".toList.isPrefixOf path
            then "//".toList else "/".toList
          some (if endsWithSlash path then join (base.below (Path.names path)) []
            else base.below (Path.names path)) := by
        rw [absolute?, filled, absolute]
        rfl
      split at spelled
      · exact ⟨"//".toList, rfl, rfl, rfl, spelled⟩
      · exact ⟨"/".toList, rfl, rfl, rfl, spelled⟩

/-- The absolute form of a path spells out the names of the working directory, and no dots. -/
theorem exists_absolute? (isStep : ∀ name ∈ names, Name.IsStep name) (nonempty : path ≠ []) :
    ∃ full, absolute? (Machine.placePath names) path = some full ∧ isAbsolute full ∧
      parts full = Path.names full ∧
      Path.names full = (if isAbsolute path then [] else names) ++ Path.names path := by
  obtain ⟨base, absolute, undotted, spelled, whole⟩ := exists_absolute?_below isStep nonempty
  have steps : ∀ name ∈ Path.names path, Name.IsStep name := fun _ => isStep_of_mem_names
  have absolute' : isAbsolute (base.below (Path.names path)) := by rwa [isAbsolute_below steps]
  have filled : base.below (Path.names path) ≠ [] := by
    intro empty
    rw [empty] at absolute'
    cases absolute'
  refine ⟨_, whole, ?_⟩
  split
  · rw [isAbsolute_join_nil filled, parts_join_nil, names_join_nil, parts_below steps,
      names_below steps, undotted, spelled]
    exact ⟨absolute', rfl, rfl⟩
  · rw [parts_below steps, names_below steps, undotted, spelled]
    exact ⟨absolute', rfl, rfl⟩

end TrackerLinks.Path
