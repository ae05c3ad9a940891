import TrackerLinks.Toml.Document

namespace TrackerLinks

structure Settings where
  included : List Text
  excluded : List Text
  languages : List (Text × Text)
  maxFileBytes : Nat
  deriving DecidableEq

namespace Settings

def fileName : Text :=
  ".issuelink.toml".toList

def standard : Settings where
  included := []
  excluded := []
  languages := []
  maxFileBytes := 1024 * 1024

/-- A path is scanned when one of the included starts fits, or there are none, and no excluded
start fits. -/
def allows (settings : Settings) (path : Text) : Bool :=
  (settings.included.isEmpty || settings.included.any (·.isPrefixOf path)) &&
    !settings.excluded.any (·.isPrefixOf path)

/-- What an entry before the first header sets. -/
inductive Setting
  | included (starts : List Text)
  | excluded (starts : List Text)
  | languages (table : List (Text × Text))
  | language (extension language : Text)
  | maxFileBytes (limit : Nat)

namespace Setting

/-- A moment stands for a table that holds its text under this key. -/
def momentKey : Text :=
  "$__toml_private_datetime".toList

def ofEntry? (keys : List Text) (value : Toml.Value) : Option Setting :=
  match keys.map String.ofList, value with
  | ["include"], .list starts => some (.included starts)
  | ["exclude"], .list starts => some (.excluded starts)
  | ["languages"], .table entries => some (.languages entries)
  | ["languages"], .moment moment => some (.languages [(momentKey, moment.text)])
  | ["languages", extension], .text id => some (.language extension.toList id)
  | ["max_file_bytes"], .number limit => some (.maxFileBytes limit)
  | _, _ => none

def included? : Setting → Option (List Text)
  | included starts => some starts
  | _ => none

def excluded? : Setting → Option (List Text)
  | excluded starts => some starts
  | _ => none

def languages? : Setting → Option (List (Text × Text))
  | languages table => some table
  | _ => none

def language? : Setting → Option (Text × Text)
  | language extension id => some (extension, id)
  | _ => none

def maxFileBytes? : Setting → Option Nat
  | maxFileBytes limit => some limit
  | _ => none

end Setting

def isEntry : Toml.Statement → Bool
  | .entry _ _ => true
  | .header _ => false

def rootSetting? : Toml.Statement → Option Setting
  | .entry keys value => Setting.ofEntry? keys value
  | .header _ => none

def sectionEntry? : Toml.Statement → Option (Text × Text)
  | .entry [extension] (.text language) => some (extension, language)
  | _ => none

/-- The table under a header, of which a document has at most one. -/
def section? : List Toml.Statement → Option (List (List (Text × Text)))
  | [] => some []
  | .header keys :: entries => do
      guard (keys = ["languages".toList])
      return [← entries.mapM sectionEntry?]
  | .entry _ _ :: _ => none

/-- The value that is given, or the standard one. Nothing may be given twice. -/
def only? (given : List α) (standard : α) : Option α :=
  match given with
  | [] => some standard
  | [value] => some value
  | _ => none

def bareExtension (extension : Text) : Text :=
  extension.dropWhile (· = '.')

def ofStatements? (statements : List Toml.Statement) : Option Settings := do
  let given ← (statements.takeWhile isEntry).mapM rootSetting?
  let underHeader ← section? (statements.dropWhile isEntry)
  let single := given.filterMap Setting.language?
  let languages ← only?
    (given.filterMap Setting.languages? ++ (if single.isEmpty then [] else [single]) ++
      underHeader) []
  guard (languages.map Prod.fst).Nodup
  return {
    included := ← only? (given.filterMap Setting.included?) standard.included
    excluded := ← only? (given.filterMap Setting.excluded?) standard.excluded
    languages := languages.map fun (extension, language) => (bareExtension extension, language)
    maxFileBytes := ← only? (given.filterMap Setting.maxFileBytes?) standard.maxFileBytes }

def ofText? (text : Text) : Option Settings :=
  (Toml.statements? text).bind ofStatements?

end Settings

end TrackerLinks
