import TrackerLinks.Path

namespace TrackerLinks.Language

def table : List (List String × String) :=
  [(["c", "h"], "c"),
    (["cc", "cpp", "cxx", "hh", "hpp"], "cpp"),
    (["cs"], "csharp"),
    (["css"], "css"),
    (["dart"], "dart"),
    (["erl", "hrl"], "erlang"),
    (["ex", "exs"], "elixir"),
    (["go"], "go"),
    (["hs"], "haskell"),
    (["htm", "html"], "html"),
    (["java"], "java"),
    (["js", "cjs", "mjs"], "javascript"),
    (["jsx"], "javascriptreact"),
    (["kt", "kts"], "kotlin"),
    (["lua"], "lua"),
    (["md", "markdown"], "markdown"),
    (["php"], "php"),
    (["pl", "pm"], "perl"),
    (["ps1", "psm1"], "powershell"),
    (["py", "pyi"], "python"),
    (["rb"], "ruby"),
    (["rs"], "rust"),
    (["scala"], "scala"),
    (["scss"], "scss"),
    (["bash", "sh", "zsh"], "shellscript"),
    (["sql"], "sql"),
    (["swift"], "swift"),
    (["tex"], "latex"),
    (["toml"], "toml"),
    (["ts", "cts", "mts"], "typescript"),
    (["tsx"], "typescriptreact"),
    (["xml"], "xml"),
    (["yaml", "yml"], "yaml"),
    (["zig"], "zig")]

/-- The language of an extension, case mattering. -/
def ofExtension? (extension : Text) : Option Text :=
  (table.find? fun row => row.1.contains (String.ofList extension)).map (·.2.toList)

def ofWholeName? (name : Name) : Option Text :=
  if name = "Dockerfile".toList then some "dockerfile".toList
  else if name = "Makefile".toList || name = "GNUmakefile".toList then some "makefile".toList
  else none

def plain : Text :=
  "plaintext".toList

/-- The language of a path. An override for its extension wins over everything else, and a path
without extension has the empty one. -/
def ofPath (overrides : List (Text × Text)) (path : Path) : Text :=
  let name := (Path.fileName? path).getD []
  let extension := (Path.extension? path).getD []
  (overrides.lookup extension).getD
    ((ofWholeName? name).getD ((ofExtension? extension).getD plain))

end TrackerLinks.Language
