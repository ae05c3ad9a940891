import TrackerLinks.IoError
import TrackerLinks.Path
import TrackerLinks.Settings
import TrackerLinks.Text.Digits
import TrackerLinks.Text.Lines

namespace TrackerLinks

inductive Error
  | fileNotFound (path : Path)
  | fileTooLarge (path : Path) (limit size : Nat)
  | io (reason : IoError)
  | json (reason : Text)
  | noRepositoryFound (start : Path)
  | originUnreadable (root : Path) (reason : Text)
  | invalidSettings
  | unrecognizedRemote (url : Text)
  | watch (reason : Text)
  deriving DecidableEq

namespace Error

def settingsFault : Text :=
  "<toml error>".toList

def message : Error → Text
  | fileNotFound path => "file not found: ".toList ++ path
  | fileTooLarge path limit size =>
      "file too large (".toList ++ Text.decimal size ++ " bytes, max ".toList ++
        Text.decimal limit ++ "): ".toList ++ path
  | io reason => "io: ".toList ++ reason.message
  | json reason => "json: ".toList ++ reason
  | noRepositoryFound start => "no repository found above ".toList ++ start
  | originUnreadable root reason =>
      "cannot read origin remote in ".toList ++ root ++ ": ".toList ++ reason
  | invalidSettings => "toml deserialize: ".toList ++ settingsFault
  | unrecognizedRemote url => "unrecognized remote url: `".toList ++ url ++ "`".toList
  | watch reason => "watch: ".toList ++ reason

def largestSize : Nat :=
  18446744073709551615

def suggestedLimit (size : Nat) : Nat :=
  min (size + 1) largestSize

def title : Error → Text
  | fileNotFound _ => "Error: File Not Found".toList
  | fileTooLarge _ _ _ => "Error: File Too Large".toList
  | io _ => "Error: I/O".toList
  | json _ => "Error: JSON Output".toList
  | noRepositoryFound _ => "No Repository".toList
  | originUnreadable _ _ => "No Origin Remote".toList
  | invalidSettings => "Error: Invalid `".toList ++ Settings.fileName ++ "`".toList
  | unrecognizedRemote _ => "Unrecognized Remote".toList
  | watch _ => "Error: Watcher".toList

/-- What happened and, where there is one, how to fix it. -/
def body : Error → Text
  | fileNotFound path => "`".toList ++ path ++ "` does not exist.".toList
  | fileTooLarge path limit size =>
      "`".toList ++ path ++ "` is ".toList ++ Text.decimal size ++ " bytes (max ".toList ++
        Text.decimal limit ++ ").\n\n## Fix\n\nRaise the limit in `".toList ++
        Settings.fileName ++ "`:\n\n    max_file_bytes = ".toList ++
        Text.decimal (suggestedLimit size)
  | io reason => reason.message
  | json reason | watch reason => reason
  | noRepositoryFound start =>
      "No `.git` entry was found in `".toList ++ start ++ "` or any of its parents.".toList
  | originUnreadable root reason =>
      "Could not read `remote.origin.url` in `".toList ++ root ++ "`: ".toList ++ reason ++
        ("\n\n## Fix\n\nConfigure an origin remote:\n\n    git remote add origin <url>").toList
  | invalidSettings => settingsFault
  | unrecognizedRemote url =>
      "The origin URL `".toList ++ url ++
        ("` is not in a supported form.\n\n## Supported forms\n\n" ++
          "    git@<host>:<owner>/<repo>.git\n" ++
          "    https://<host>/<owner>/<repo>.git\n" ++
          "    http://<host>/<owner>/<repo>").toList

def markdown (error : Error) : Text :=
  "# ".toList ++ error.title ++ "\n\n".toList ++ error.body ++ "\n".toList

/-- A heading is set in bold on a terminal. -/
def emphasized (line : Text) : Text :=
  if line.head? = some '#' then "\x1b[1m".toList ++ line ++ "\x1b[0m".toList else line

def printed (error : Error) : Text :=
  (Text.endedLines error.markdown).flatMap fun line => emphasized line ++ ['\n']

end Error

end TrackerLinks
