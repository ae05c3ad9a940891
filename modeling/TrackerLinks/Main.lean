import TrackerLinks.Command.Arguments
import TrackerLinks.OriginFile

/-! The program on a real machine. -/

namespace TrackerLinks.Console

def refusal : IO.Error → IoError
  | .noFileOrDirectory _ _ _ => .notFound
  | .inappropriateType _ code _ => if code = 21 then .isADirectory else .notADirectory
  | .invalidArgument _ code details =>
      match min code (0 - code) with
      | 22 => .nulInPath
      | 36 => .nameTooLong
      | 40 => .tooManyLinks
      | _ => .other details.toList
  | error => .other error.toString.toList

def attempt (action : IO α) : IO (Except IoError α) := do
  match ← action.toBaseIO with
  | .ok value => return .ok value
  | .error error => return .error (refusal error)

/-- Opening comes first since it tells why a path leads nowhere. -/
def status (path : Path) : IO Status := do
  let _ ← IO.FS.Handle.mk (String.ofList path) .read
  let data ← (← IO.FS.realPath (String.ofList path)).metadata
  return ⟨data.type == .dir, data.byteSize.toNat⟩

/-- Directories that a scan skips or that cannot be read are left empty. -/
partial def entries (directory : String) : IO (List (Name × Tree Entry)) := do
  let found ← (← IO.FS.realPath directory).readDir
  found.toList.mapM fun entry => do
    let name := entry.fileName.toList
    match (← entry.path.symlinkMetadata).type with
    | .dir =>
        if isSkippedName name then return (name, .empty)
        match ← attempt (entries entry.path.toString) with
        | .ok inner => return (name, .directory inner)
        | .error _ => return (name, .empty)
    | .file => return (name, .leaf .file)
    | _ => return (name, .leaf .other)

def tree (path : Path) : IO (Tree Entry) := do
  if (← status path).isDirectory then return .directory (← entries (String.ofList path))
  return .leaf .file

def origin (root : Path) : IO OriginReading := do
  let file := Path.join (Path.join root Repository.marker) "config".toList
  match ← attempt (IO.FS.readFile (String.ofList file)) with
  | .ok content => return OriginFile.reading content.toList
  | .error _ => return .exited 1

def host : Host IO where
  workingDirectory := return (← IO.currentDir).toString.toList
  status path := attempt (status path)
  read path := attempt (IO.FS.readBinFile (String.ofList path))
  tree path := return (← attempt (tree path)).toOption.map (·.listed path)
  origin root := return (← origin root).outcome root
  arrange := pure
  isUnicode _ := pure true

end TrackerLinks.Console

open TrackerLinks in
def main (arguments : List String) : IO UInt32 := do
  let outcome ← Outcome.ofArguments Console.host (arguments.map String.toList)
  IO.print (String.ofList outcome.output)
  if let some error := outcome.diagnostic then
    IO.eprint (String.ofList error.printed)
  return outcome.exitCode.toUInt32
