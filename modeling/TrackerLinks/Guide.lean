import TrackerLinks.Report

/-! The reference document that the program gives about itself, with the state of the project. -/

namespace TrackerLinks.Guide

def version : Text :=
  "0.1.0".toList

structure State where
  settingsError : Option Error
  hasSettings : Bool
  repository : Option Repository
  deriving DecidableEq

def State.gather [Monad m] (host : Host m) (directory : Path) : m State := do
  let hasSettings ← host.pathExists (Path.join directory Settings.fileName)
  let settings ← Settings.load host directory
  let repository ← Repository.ofPath? host directory
  return {
    settingsError := match settings with
      | .ok _ => none
      | .error error => some error
    hasSettings := hasSettings
    repository := repository }

/-- Line openers come before blocks. -/
def delimiters (profile : Comment.Profile) : List Text :=
  profile.delimiters.lineOpeners ++
    profile.delimiters.blocks.map fun (opener, closer) => opener ++ " ... ".toList ++ closer

def introduction : String :=
  "

Finds issue references in source comments and links them to the issue
tracker of the repository the file lives in.

## Reference Syntax

    // fixed upstream (#42)
    # see (# 108 ) for context
    /* tracked in (#7)(#8) */

Only references inside comments are linked.

## Commands

    issuelink links <file>            Links found in one file
    issuelink comments <file>         Comment spans detected in one file
    issuelink resolve <path>          Repository and provider for a path
    issuelink scan                    Links for every file in the working tree
    issuelink watch                   Re-run scan whenever files change

## Providers

| Host contains  | Provider  | Issue URL                  |
|----------------|-----------|----------------------------|
| github.com     | GitHub    | <repo>/issues/<n>          |
| gitlab.com     | GitLab    | <repo>/-/issues/<n>        |
| bitbucket.org  | Bitbucket | <repo>/issues/<n>          |
| anything else  | Git       | <repo>/issues/<n>          |

"

def settingsExample : String :=
  "

    include = [\"src/\"]                  # only scan these paths
    exclude = [\"src/generated/\"]        # skip these paths
    max_file_bytes = 1048576            # skip larger files

    [languages]
    inc = \"cpp\"                         # treat *.inc as C++

## Current State

"

def exitCodeTable : String :=
  "
## Exit Codes

| Code | Meaning |
|------|---------|
| 0    | Success |
| 1    | No repository found (`resolve`) |
| 2    | Runtime error |
"

def profileRow (profile : Comment.Profile) : Text :=
  "| ".toList ++ profile.name ++ " | ".toList ++ Text.joined [' '] (delimiters profile) ++
    " |\n".toList

def profileTable : Text :=
  "## Comment Profiles\n\n| Profile | Delimiters |\n|---------|------------|\n".toList ++
    Comment.Profile.all.flatMap profileRow ++ "\n".toList

def State.settingsLine (state : State) : Text :=
  let verdict := match state.settingsError, state.hasSettings with
    | some error, _ => "invalid: ".toList ++ error.message
    | none, true => "found".toList
    | none, false => "not found".toList
  "Config:     ".toList ++ Settings.fileName ++ " (".toList ++ verdict ++ ")\n".toList

def State.repositoryLine (state : State) : Text :=
  match state.repository with
  | some repository =>
      "Repository: ".toList ++ repository.webUrl ++ " (".toList ++ repository.provider.name ++
        ")\n".toList
  | none => "Repository: (none)\n".toList

def markdown (state : State) : Text :=
  "# issuelink ".toList ++ version ++ introduction.toList ++ profileTable ++
    "## Configuration (".toList ++ Settings.fileName ++ ")".toList ++ settingsExample.toList ++
    state.settingsLine ++ state.repositoryLine ++ exitCodeTable.toList

def exitCode (code : Nat) (meaning : String) : Json :=
  .object [("code".toList, .number code), ("meaning".toList, .text meaning.toList)]

def profileJson (profile : Comment.Profile) : Json :=
  .object
    [("delimiters".toList, .list ((delimiters profile).map .text)),
      ("profile".toList, .text profile.name)]

def State.json (state : State) : Json :=
  .object
    [("config_error".toList, .option (fun error => .text error.message) state.settingsError),
      ("config_found".toList, .bool state.hasSettings),
      ("repository".toList, .option Repository.json state.repository)]

def json (state : State) : Json :=
  .object
    [("comment_profiles".toList, .list (Comment.Profile.all.map profileJson)),
      ("current_state".toList, state.json),
      ("exit_codes".toList,
        .list
          [exitCode 0 "Success", exitCode 1 "No repository found (resolve)",
            exitCode 2 "Runtime error"]),
      ("providers".toList, .list (Provider.all.map fun provider => .text provider.name)),
      ("version".toList, .text version)]

end TrackerLinks.Guide
