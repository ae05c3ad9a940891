import Mathlib.Data.Option.Basic
import TrackerLinks.Settings

namespace TrackerLinks.Settings

variable {statements : List Toml.Statement} {key language : Text}
  {tables : List (List (Text × Text))} {table : List (Text × Text)} {settings : Settings}

/-- What the statements of a settings file give to extensions, as these are written there. -/
inductive Assigns (statements : List Toml.Statement) (key language : Text) : Prop
  | single
      (stated : .entry ["languages".toList, key] (.text language) ∈ statements.takeWhile isEntry) :
      Assigns statements key language
  | table {entries : List (Text × Text)}
      (stated : .entry ["languages".toList] (.table entries) ∈ statements.takeWhile isEntry)
      (member : (key, language) ∈ entries) : Assigns statements key language
  | moment {moment : Toml.Moment}
      (stated : .entry ["languages".toList] (.moment moment) ∈ statements.takeWhile isEntry)
      (written : key = Setting.momentKey ∧ language = moment.text) :
      Assigns statements key language
  | headed {entries : List Toml.Statement}
      (headed : statements.dropWhile isEntry = .header ["languages".toList] :: entries)
      (stated : .entry [key] (.text language) ∈ entries) : Assigns statements key language

theorem mem_of_mapM {α β : Type} {f : α → Option β} {items : List α} {found : List β}
    (all : items.mapM f = some found) (b : β) : b ∈ found ↔ ∃ a ∈ items, f a = some b := by
  induction items generalizing found with
  | nil =>
      cases all
      simp
  | cons a items ih =>
      rw [List.mapM_cons] at all
      simp only [Option.bind_eq_bind, Option.bind_eq_some_iff, Option.pure_def] at all
      obtain ⟨first, here, rest, later, result⟩ := all
      cases result
      simp [ih later, here, eq_comm]

theorem mem_of_only? (single : only? tables [] = some table) (entry : Text × Text) :
    entry ∈ table ↔ ∃ given ∈ tables, entry ∈ given := by
  unfold only? at single
  split at single
  · cases single
    simp
  · cases single
    simp
  · cases single

theorem eq_of_map_ofList {keys : List Text} {names : List String}
    (h : keys.map String.ofList = names) : keys = names.map String.toList := by
  rw [← h, List.map_map]
  simp [Function.comp_def]

theorem rootSetting?_eq_language_iff {statement : Toml.Statement} :
    rootSetting? statement = some (.language key language) ↔
      statement = .entry ["languages".toList, key] (.text language) := by
  constructor
  · intro read
    unfold rootSetting? Setting.ofEntry? at read
    split at read
    case h_2 => cases read
    rename_i keys value
    split at read
    all_goals cases read
    rename_i spelled
    rw [eq_of_map_ofList spelled]
    rfl
  · rintro rfl
    simp [rootSetting?, Setting.ofEntry?]

theorem rootSetting?_eq_languages_iff {statement : Toml.Statement} :
    rootSetting? statement = some (.languages table) ↔
      statement = .entry ["languages".toList] (.table table) ∨
        ∃ moment, statement = .entry ["languages".toList] (.moment moment) ∧
          table = [(Setting.momentKey, moment.text)] := by
  constructor
  · intro read
    unfold rootSetting? Setting.ofEntry? at read
    split at read
    case h_2 => cases read
    rename_i keys value
    split at read
    all_goals cases read
    · rename_i spelled
      rw [eq_of_map_ofList spelled]
      exact .inl rfl
    · rename_i moment spelled
      rw [eq_of_map_ofList spelled]
      exact .inr ⟨moment, rfl, rfl⟩
  · rintro (rfl | ⟨moment, rfl, rfl⟩)
    · simp [rootSetting?, Setting.ofEntry?]
    · simp [rootSetting?, Setting.ofEntry?]

theorem sectionEntry?_eq_some_iff {statement : Toml.Statement} :
    sectionEntry? statement = some (key, language) ↔ statement = .entry [key] (.text language) := by
  constructor
  · intro read
    unfold sectionEntry? at read
    split at read
    · cases read
      rfl
    · cases read
  · rintro rfl
    rfl

theorem mem_section?_iff {entries : List Toml.Statement} (read : section? entries = some tables) :
    (∃ given ∈ tables, (key, language) ∈ given) ↔
      ∃ more, entries = .header ["languages".toList] :: more ∧
        .entry [key] (.text language) ∈ more := by
  unfold section? at read
  split at read
  · cases read
    simp
  · rename_i keys more
    simp only [Option.bind_eq_bind, Option.bind_eq_some_iff, Option.pure_def,
      Option.guard_eq_some'] at read
    obtain ⟨_, named, given, all, result⟩ := read
    cases result
    subst named
    constructor
    · rintro ⟨_, member, stated⟩
      obtain rfl := List.mem_singleton.mp member
      obtain ⟨statement, among, entry⟩ := (mem_of_mapM all _).mp stated
      exact ⟨more, rfl, sectionEntry?_eq_some_iff.mp entry ▸ among⟩
    · rintro ⟨_, ⟨⟩, stated⟩
      exact ⟨given, List.mem_singleton_self _,
        (mem_of_mapM all _).mpr ⟨_, stated, sectionEntry?_eq_some_iff.mpr rfl⟩⟩
  · cases read

/-- The languages of a table as they are used, without the dots in front of the extensions. -/
def bareTable (table : List (Text × Text)) : List (Text × Text) :=
  table.map fun (extension, language) => (bareExtension extension, language)

theorem language?_eq_some_iff {setting : Setting} :
    setting.language? = some (key, language) ↔ setting = .language key language := by
  cases setting <;> simp [Setting.language?]

theorem languages?_eq_some_iff {setting : Setting} :
    setting.languages? = some table ↔ setting = .languages table := by
  cases setting <;> simp [Setting.languages?]

section Root

variable {given : List Setting}
  (rooted : (statements.takeWhile isEntry).mapM rootSetting? = some given)

include rooted

theorem mem_single_iff :
    (key, language) ∈ given.filterMap Setting.language? ↔
      .entry ["languages".toList, key] (.text language) ∈ statements.takeWhile isEntry := by
  simp only [List.mem_filterMap, language?_eq_some_iff, mem_of_mapM rooted, exists_eq_right,
    rootSetting?_eq_language_iff]

theorem mem_rootTable_iff :
    (∃ table ∈ given.filterMap Setting.languages?, (key, language) ∈ table) ↔
      (∃ entries, .entry ["languages".toList] (.table entries) ∈ statements.takeWhile isEntry ∧
        (key, language) ∈ entries) ∨
      ∃ moment, .entry ["languages".toList] (.moment moment) ∈ statements.takeWhile isEntry ∧
        key = Setting.momentKey ∧ language = moment.text := by
  simp only [List.mem_filterMap, languages?_eq_some_iff, mem_of_mapM rooted, exists_eq_right,
    rootSetting?_eq_languages_iff]
  constructor
  · rintro ⟨table, ⟨_, stated, rfl | ⟨moment, rfl, rfl⟩⟩, member⟩
    · exact .inl ⟨table, stated, member⟩
    · exact .inr ⟨moment, stated, Prod.mk.inj (List.mem_singleton.mp member)⟩
  · rintro (⟨table, stated, member⟩ | ⟨moment, stated, rfl, rfl⟩)
    · exact ⟨table, ⟨_, stated, .inl rfl⟩, member⟩
    · exact ⟨_, ⟨_, stated, .inr ⟨moment, rfl, rfl⟩⟩, List.mem_singleton_self _⟩

end Root

theorem exists_table_of_ofStatements? (accepted : ofStatements? statements = some settings) :
    ∃ table : List (Text × Text), (table.map Prod.fst).Nodup ∧
      settings.languages = bareTable table ∧
      ∀ key language, (key, language) ∈ table ↔ Assigns statements key language := by
  simp only [ofStatements?, Option.bind_eq_bind, Option.bind_eq_some_iff, Option.pure_def,
    Option.guard_eq_some'] at accepted
  obtain ⟨given, rooted, underHeader, headed, table, single, _, nodup, _, _, _, _, _, _, result⟩ :=
    accepted
  cases result
  refine ⟨table, nodup, rfl, ?_⟩
  intro key language
  have alone (entry : Text × Text) : (∃ table ∈ (if (given.filterMap Setting.language?).isEmpty
      then [] else [given.filterMap Setting.language?]), entry ∈ table) ↔
      entry ∈ given.filterMap Setting.language? := by
    split
    · rename_i empty
      simp [List.isEmpty_iff.mp empty]
    · simp
  simp only [mem_of_only? single, List.mem_append, or_and_right, exists_or, alone,
    mem_single_iff rooted, mem_rootTable_iff rooted, mem_section?_iff headed]
  constructor
  · rintro (((⟨entries, stated, member⟩ | ⟨moment, stated, written⟩) | stated) |
      ⟨more, headed, stated⟩)
    · exact .table stated member
    · exact .moment stated written
    · exact .single stated
    · exact .headed headed stated
  · rintro (stated | ⟨stated, member⟩ | ⟨stated, written⟩ | ⟨headed, stated⟩)
    · exact .inl (.inr stated)
    · exact .inl (.inl (.inl ⟨_, stated, member⟩))
    · exact .inl (.inl (.inr ⟨_, stated, written⟩))
    · exact .inr ⟨_, headed, stated⟩

end TrackerLinks.Settings
