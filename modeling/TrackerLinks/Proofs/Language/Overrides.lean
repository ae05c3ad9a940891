import Mathlib.Data.List.Nodup
import TrackerLinks.Proofs.Language.Detection
import TrackerLinks.Proofs.Settings.Languages
import TrackerLinks.Proofs.Text.Lookup

namespace TrackerLinks

variable {name : Name} {key language extension : Text} {path directory : Path}
  {table ordered changed : List (Text × Text)} {settings : Settings}

namespace Settings

theorem bareExtension_spec (key : Text) :
    (∀ c ∈ (bareExtension key).head?, c ≠ '.') ∧
      ∃ dots, (∀ c ∈ dots, c = '.') ∧ key = dots ++ bareExtension key := by
  have bare : key.dropWhile (· = '.') = bareExtension key := rfl
  simpa using Text.dropWhile_eq_iff.mp bare

theorem mem_bareTable_iff :
    (extension, language) ∈ bareTable table ↔
      ∃ key, (key, language) ∈ table ∧ bareExtension key = extension := by
  simp [bareTable]

theorem lookup_bareTable_of_ne (other : bareExtension key ≠ extension)
    (same : changed.filter (·.1 ≠ key) = ordered.filter (·.1 ≠ key)) :
    (bareTable changed).lookup extension = (bareTable ordered).lookup extension := by
  have without (table : List (Text × Text)) :
      (bareTable (table.filter (·.1 ≠ key))).lookup extension =
        (bareTable table).lookup extension := by
    induction table with
    | nil => rfl
    | cons entry table ih =>
        by_cases here : entry.1 = key
        · rw [List.filter_cons_of_neg (by simpa using here), ih, bareTable, bareTable,
            List.map_cons, List.lookup_cons, here, beq_false_of_ne other.symm]
        · rw [List.filter_cons_of_pos (by simpa using here), bareTable, bareTable, List.map_cons,
            List.map_cons, List.lookup_cons, List.lookup_cons, ← bareTable, ← bareTable, ih]
  rw [← without changed, same, without ordered]

/-- Keys that differ only in the dots in front stand for one extension, and one of them decides. -/
theorem exists_lookup_bareTable (member : (key, language) ∈ table) :
    ∃ other given, (other, given) ∈ table ∧ bareExtension other = bareExtension key ∧
      (bareTable table).lookup (bareExtension key) = some given := by
  obtain ⟨given, found⟩ := Option.isSome_iff_exists.mp (List.lookup_isSome_iff.mpr
    ⟨_, mem_bareTable_iff.mpr ⟨key, member, rfl⟩, beq_self_eq_true _⟩)
  obtain ⟨other, member', shared⟩ := mem_bareTable_iff.mp (Text.mem_of_lookup_eq_some found)
  exact ⟨other, given, member', shared, found⟩

theorem lookup_bareTable_of_mem (distinct : (table.map Prod.fst).Nodup)
    (member : (key, language) ∈ table)
    (alone : ∀ entry ∈ table, bareExtension entry.1 = bareExtension key → entry.1 = key) :
    (bareTable table).lookup (bareExtension key) = some language := by
  obtain ⟨other, given, member', shared, found⟩ := exists_lookup_bareTable member
  obtain rfl := alone _ member' shared
  rw [found, Option.some.injEq]
  exact congrArg Prod.snd (List.inj_on_of_nodup_map distinct member' member rfl)

/-- What is given to the key matters to the path: there is a change to its entry alone that changes
the language of the path, for some order in which the entries are kept. -/
def Affects (table : List (Text × Text)) (key : Text) (path : Path) : Prop :=
  ∃ ordered changed, ordered.Perm table ∧
    changed.filter (·.1 ≠ key) = ordered.filter (·.1 ≠ key) ∧
    Language.ofPath (bareTable changed) path ≠ Language.ofPath (bareTable ordered) path

theorem affects_iff (isFileName : name.IsFileName) (hasExtension : name.HasExtension extension)
    (member : (key, language) ∈ table) (directory : Path) :
    Affects table key (Path.join directory name) ↔ extension = bareExtension key := by
  constructor
  · rintro ⟨ordered, changed, _, same, differs⟩
    by_contra other
    have unread := lookup_bareTable_of_ne (Ne.symm other) same
    exact differs (Language.ofPath_join_congr isFileName hasExtension unread directory directory)
  · rintro rfl
    have first (given : Text) :
        Language.ofPath (bareTable ((key, given) :: table.erase (key, language)))
          (Path.join directory name) = given := by
      apply Language.ofPath_join_of_lookup isFileName hasExtension
      rw [bareTable, List.map_cons, List.lookup_cons_self]
    refine ⟨(key, language) :: table.erase (key, language),
      (key, 'x' :: language) :: table.erase (key, language),
      (List.perm_cons_erase member).symm, ?_, ?_⟩
    · rw [List.filter_cons_of_neg (by simp), List.filter_cons_of_neg (by simp)]
    · rw [first, first]
      exact List.cons_ne_self _ _

/-- The languages that the text of a settings file gives, each to its key as it is written there. -/
def IsTableOf (text : Text) (table : List (Text × Text)) : Prop :=
  (table.map Prod.fst).Nodup ∧ ∃ statements, Toml.statements? text = some statements ∧
    ∀ key language, (key, language) ∈ table ↔ Assigns statements key language

theorem exists_isTableOf {text : Text} (accepted : ofText? text = some settings) :
    ∃ table, IsTableOf text table ∧ settings.languages = bareTable table := by
  obtain ⟨statements, read, accepted⟩ := Option.bind_eq_some_iff.mp accepted
  obtain ⟨table, distinct, kept, given⟩ := exists_table_of_ofStatements? accepted
  exact ⟨table, ⟨distinct, statements, read, given⟩, kept⟩

end Settings

namespace Language

/-- Only the name of a file and the override for its extension matter to its language. An override
wins, the one for the empty extension also over a name that has a language of its own. In a settings
file, the entry for a key is for the files whose extension is the key without the dots in front. -/
theorem ofPath_told_by_name (isFileName : name.IsFileName)
    (hasExtension : name.HasExtension extension) :
    (∀ (overrides overrides' : List (Text × Text)) (directory directory' : Path),
      overrides.lookup extension = overrides'.lookup extension →
        ofPath overrides (Path.join directory name) =
          ofPath overrides' (Path.join directory' name)) ∧
    (∀ (overrides : List (Text × Text)) (directory : Path) (language : Text),
      overrides.lookup extension = some language →
        ofPath overrides (Path.join directory name) = language) ∧
    (name ∈ ["Dockerfile".toList, "Makefile".toList, "GNUmakefile".toList] → extension = []) ∧
    ∀ (text : Text) (settings : Settings), Settings.ofText? text = some settings →
      ∃ table, Settings.IsTableOf text table ∧
        settings.languages = Settings.bareTable table ∧
        ∀ key language, (key, language) ∈ table →
          (∀ c ∈ (Settings.bareExtension key).head?, c ≠ '.') ∧
          (∃ dots, (∀ c ∈ dots, c = '.') ∧ key = dots ++ Settings.bareExtension key) ∧
          ∀ directory : Path,
            (Settings.Affects table key (Path.join directory name) ↔
              extension = Settings.bareExtension key) ∧
            (extension = Settings.bareExtension key →
              ∃ other given, (other, given) ∈ table ∧
                Settings.bareExtension other = Settings.bareExtension key ∧
                ofPath settings.languages (Path.join directory name) = given) ∧
            (extension = Settings.bareExtension key →
              (∀ entry ∈ table, Settings.bareExtension entry.1 = Settings.bareExtension key →
                entry.1 = key) →
              ofPath settings.languages (Path.join directory name) = language) ∧
            ('.' ∈ Settings.bareExtension key →
              ¬ Settings.Affects table key (Path.join directory name)) := by
  refine ⟨fun _ _ directory directory' same =>
      ofPath_join_congr isFileName hasExtension same directory directory',
    fun _ directory _ given => ofPath_join_of_lookup isFileName hasExtension given directory,
    extension_eq_nil_of_wholeName hasExtension, ?_⟩
  intro text settings accepted
  obtain ⟨table, isTable, kept⟩ := Settings.exists_isTableOf accepted
  refine ⟨table, isTable, kept, ?_⟩
  intro key language member
  obtain ⟨bare, dotted⟩ := Settings.bareExtension_spec key
  refine ⟨bare, dotted, fun directory => ?_⟩
  have affects := Settings.affects_iff isFileName hasExtension member directory
  refine ⟨affects, ?decided, ?alone, ?inner⟩
  case decided =>
    rintro rfl
    obtain ⟨other, given, member', shared, found⟩ := Settings.exists_lookup_bareTable member
    rw [← kept] at found
    exact ⟨other, given, member', shared,
      ofPath_join_of_lookup isFileName hasExtension found directory⟩
  case alone =>
    rintro rfl alone
    have found := Settings.lookup_bareTable_of_mem isTable.1 member alone
    rw [← kept] at found
    exact ofPath_join_of_lookup isFileName hasExtension found directory
  case inner =>
    intro dot affected
    rw [← affects.mp affected] at dot
    exact hasExtension.dot_not_mem dot

/-- Settings with an extension that is written with its dot, and one that no file has. -/
def dotted : Text :=
  "languages.\".inc\" = \"cpp\"\nlanguages.\"tar.gz\" = \"archive\"\n".toList

def dottedStatements : List Toml.Statement :=
  [.entry ["languages".toList, ".inc".toList] (.text "cpp".toList),
    .entry ["languages".toList, "tar.gz".toList] (.text "archive".toList)]

def dottedSettings : Settings :=
  { Settings.standard with
    languages := [("inc".toList, "cpp".toList), ("tar.gz".toList, "archive".toList)] }

theorem statements?_dotted : Toml.statements? dotted = some dottedStatements := by
  decide +kernel

theorem ofStatements?_dotted : Settings.ofStatements? dottedStatements = some dottedSettings := rfl

theorem ofPath_told_by_name_dotted :
    ofPath dottedSettings.languages "src/app.inc".toList = "cpp".toList ∧
    ofPath dottedSettings.languages "src/app.inc".toList =
      ofPath [("inc".toList, "cpp".toList)] "./app.inc".toList ∧
    Settings.ofText? dotted = some dottedSettings ∧
    ∃ table, Settings.IsTableOf dotted table ∧
      dottedSettings.languages = Settings.bareTable table ∧
      Settings.Affects table ".inc".toList "src/app.inc".toList ∧
      ¬ Settings.Affects table "tar.gz".toList "src/app.inc".toList := by
  have isFileName : Name.IsFileName "app.inc".toList :=
    { ne_nil := by decide, ne_dot := by decide, slash := by decide, ne_up := by decide }
  have hasExtension : Name.HasExtension "app.inc".toList "inc".toList :=
    .after (show "app".toList ≠ [] by decide) (by decide)
  have accepted : Settings.ofText? dotted = some dottedSettings := by
    rw [Settings.ofText?, statements?_dotted, Option.bind_some, ofStatements?_dotted]
  obtain ⟨same, overridden, _, tables⟩ := ofPath_told_by_name isFileName hasExtension
  obtain ⟨table, isTable, kept, entries⟩ := tables dotted dottedSettings accepted
  have given (key language : Text)
      (stated : .entry ["languages".toList, key] (.text language) ∈ dottedStatements) :
      (key, language) ∈ table := by
    obtain ⟨_, statements, read, mem_iff⟩ := isTable
    obtain rfl := Option.some.inj (statements?_dotted.symm.trans read)
    exact (mem_iff key language).mpr (.single stated)
  refine ⟨overridden _ "src".toList _ rfl, same _ _ "src".toList ".".toList rfl, accepted, table,
    isTable, kept, ?_, ?_⟩
  · obtain ⟨_, _, here⟩ := entries _ _ (given ".inc".toList "cpp".toList (by decide))
    exact (here "src".toList).1.mpr rfl
  · obtain ⟨_, _, here⟩ := entries _ _ (given "tar.gz".toList "archive".toList (by decide))
    exact (here "src".toList).2.2.2 (by decide)

end Language

end TrackerLinks
