import TrackerLinks.Language
import TrackerLinks.Proofs.Path.Names
import TrackerLinks.Proofs.Text.Trimming

namespace TrackerLinks

variable {name : Name} {extension : Text} {directory : Path}

/-- A name that a file may have, and not only a directory. -/
structure Name.IsFileName (name : Name) : Prop extends name.IsStep where
  ne_up : name ≠ ['.', '.']

/-- What stands after the last dot of a name. A dot in front makes a name hidden and starts no
extension. -/
inductive Name.HasExtension : Name → Text → Prop
  | after {stem extension : Text} (nonempty : stem ≠ []) (last : '.' ∉ extension) :
      HasExtension (stem ++ '.' :: extension) extension
  | plain {name : Name} (undotted : '.' ∉ name) : HasExtension name []
  | hidden {rest : Name} (undotted : '.' ∉ rest) : HasExtension ('.' :: rest) []

theorem Name.HasExtension.dot_not_mem (h : name.HasExtension extension) : '.' ∉ extension := by
  cases h with
  | after _ last => exact last
  | plain _ => exact List.not_mem_nil
  | hidden _ => exact List.not_mem_nil

theorem Name.exists_hasExtension (name : Name) : ∃ extension, name.HasExtension extension := by
  by_cases dotted : '.' ∈ name.reverse
  · obtain ⟨last, before, split, unseen⟩ := List.eq_append_cons_of_mem dotted
    have whole : name = before.reverse ++ '.' :: last.reverse := by
      rw [← List.reverse_reverse name, split]
      simp
    have undotted : '.' ∉ last.reverse := fun member => unseen (List.mem_reverse.mp member)
    rw [whole]
    by_cases front : before.reverse = []
    · rw [front]
      exact ⟨[], .hidden undotted⟩
    · exact ⟨last.reverse, .after front undotted⟩
  · exact ⟨[], .plain fun member => dotted (List.mem_reverse.mpr member)⟩

namespace Path

theorem getD_extensionOf? (h : name.HasExtension extension) :
    (extensionOf? name).getD [] = extension := by
  cases h with
  | @after stem extension nonempty last =>
      have backwards : (stem ++ '.' :: extension).reverse =
          extension.reverse ++ '.' :: stem.reverse := by simp
      have unseen : '.' ∉ extension.reverse := fun member => last (List.mem_reverse.mp member)
      obtain ⟨c, rest, before⟩ :=
        List.exists_cons_of_ne_nil (List.reverse_ne_nil_iff.mpr nonempty)
      rw [extensionOf?, backwards, (Text.cut_of_not_mem unseen _).2,
        (Text.cut_of_not_mem unseen _).1, before, List.reverse_reverse]
      rfl
  | plain undotted =>
      have unseen : ∀ c ∈ name.reverse, decide (c ≠ '.') = true := by
        intro c member
        exact decide_eq_true fun dot => undotted (dot ▸ List.mem_reverse.mp member)
      rw [extensionOf?, List.dropWhile_eq_nil_iff.mpr unseen]
      rfl
  | @hidden rest undotted =>
      have unseen : '.' ∉ rest.reverse := fun member => undotted (List.mem_reverse.mp member)
      rw [extensionOf?, List.reverse_cons, (Text.cut_of_not_mem unseen []).2]
      rfl

/-- Every name has one extension, which may be empty. -/
theorem hasExtension_iff :
    name.HasExtension extension ↔ (extensionOf? name).getD [] = extension := by
  constructor
  · exact getD_extensionOf?
  · rintro rfl
    obtain ⟨extension, found⟩ := name.exists_hasExtension
    rwa [getD_extensionOf? found]

theorem fileName?_join (isFileName : name.IsFileName) :
    fileName? (join directory name) = some name := by
  simp [fileName?, names_join isFileName.toIsStep, isFileName.ne_up]

end Path

namespace Language

theorem ofPath_join (isFileName : name.IsFileName) (hasExtension : name.HasExtension extension)
    (overrides : List (Text × Text)) (directory : Path) :
    ofPath overrides (Path.join directory name) =
      (overrides.lookup extension).getD
        ((ofWholeName? name).getD ((ofExtension? extension).getD plain)) := by
  simp only [ofPath, Path.extension?, Path.fileName?_join isFileName, Option.bind_some,
    Option.getD_some, Path.hasExtension_iff.mp hasExtension]

theorem ofPath_join_congr (isFileName : name.IsFileName)
    (hasExtension : name.HasExtension extension) {overrides overrides' : List (Text × Text)}
    (same : overrides.lookup extension = overrides'.lookup extension)
    (directory directory' : Path) :
    ofPath overrides (Path.join directory name) = ofPath overrides' (Path.join directory' name) := by
  rw [ofPath_join isFileName hasExtension, ofPath_join isFileName hasExtension, same]

theorem ofPath_join_of_lookup (isFileName : name.IsFileName)
    (hasExtension : name.HasExtension extension) {overrides : List (Text × Text)} {language : Text}
    (given : overrides.lookup extension = some language) (directory : Path) :
    ofPath overrides (Path.join directory name) = language := by
  rw [ofPath_join isFileName hasExtension, given, Option.getD_some]

theorem extension_eq_nil_of_wholeName (hasExtension : name.HasExtension extension)
    (whole : name ∈ ["Dockerfile".toList, "Makefile".toList, "GNUmakefile".toList]) :
    extension = [] := by
  rw [← Path.hasExtension_iff.mp hasExtension]
  simp only [List.mem_cons, List.not_mem_nil, or_false] at whole
  rcases whole with rfl | rfl | rfl <;> decide

end Language

end TrackerLinks
