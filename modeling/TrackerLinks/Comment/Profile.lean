import TrackerLinks.Comment.Delimiters

namespace TrackerLinks.Comment

/-- A family of languages with the same comments. -/
inductive Profile
  | cFamily
  | css
  | fallback
  | hash
  | haskell
  | lisp
  | lua
  | markup
  | percent
  | php
  | powerShell
  | sql
  deriving DecidableEq

namespace Profile

def all : List Profile :=
  [cFamily, css, fallback, hash, haskell, lisp, lua, markup, percent, php, powerShell, sql]

def name : Profile → Text
  | cFamily => "CFamily".toList
  | css => "Css".toList
  | fallback => "Fallback".toList
  | hash => "Hash".toList
  | haskell => "Haskell".toList
  | lisp => "Lisp".toList
  | lua => "Lua".toList
  | markup => "Markup".toList
  | percent => "Percent".toList
  | php => "Php".toList
  | powerShell => "PowerShell".toList
  | sql => "Sql".toList

def ofName? (name : Text) : Option Profile :=
  all.find? (·.name = name)

def slashes : Marker := .line "//".toList

def starred : Marker := .block "/*".toList "*/".toList

def hashMark : Marker := .line "#".toList

def dashes : Marker := .line "--".toList

def percentMark : Marker := .line "%".toList

def delimiters : Profile → Delimiters
  | cFamily => ⟨[starred, slashes], by decide⟩
  | css => ⟨[starred], by decide⟩
  | fallback =>
      ⟨[slashes, .line "/*".toList, .line "*".toList, .line "*/".toList, hashMark, dashes,
        percentMark], by decide⟩
  | hash => ⟨[hashMark], by decide⟩
  | haskell => ⟨[.block "\x7b-".toList "-\x7d".toList, dashes], by decide⟩
  | lisp => ⟨[.line ";".toList], by decide⟩
  | lua => ⟨[.block "--[[".toList "]]".toList, dashes], by decide⟩
  | markup => ⟨[.block "<!--".toList "-->".toList], by decide⟩
  | percent => ⟨[percentMark], by decide⟩
  | php => ⟨[starred, slashes, hashMark], by decide⟩
  | powerShell => ⟨[.block "<#".toList "#>".toList, hashMark], by decide⟩
  | sql => ⟨[starred, dashes], by decide⟩

def languages : Profile → List String
  | cFamily =>
      ["c", "cpp", "csharp", "cuda-cpp", "dart", "go", "groovy", "java", "javascript",
        "javascriptreact", "jsonc", "kotlin", "less", "objective-c", "objective-cpp", "proto",
        "rust", "scala", "scss", "solidity", "swift", "typescript", "typescriptreact", "zig"]
  | css => ["css"]
  | fallback => []
  | hash =>
      ["coffeescript", "dockerfile", "elixir", "julia", "makefile", "nim", "perl", "python", "r",
        "ruby", "shellscript", "toml", "yaml"]
  | haskell => ["haskell"]
  | lisp => ["clojure", "ini", "lisp", "scheme"]
  | lua => ["lua"]
  | markup => ["html", "markdown", "svg", "xml"]
  | percent => ["erlang", "latex", "matlab", "tex"]
  | php => ["php"]
  | powerShell => ["powershell"]
  | sql => ["sql"]

/-- The profile of a language identifier, in which the case of ASCII letters does not count. -/
def ofLanguage (language : Text) : Profile :=
  let folded := String.ofList (language.map Char.toLower)
  (all.find? fun profile => profile.languages.contains folded).getD fallback

end Profile

end TrackerLinks.Comment
