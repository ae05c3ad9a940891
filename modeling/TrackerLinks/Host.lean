import TrackerLinks.Error
import TrackerLinks.Tree

namespace TrackerLinks

structure Status where
  isDirectory : Bool
  size : Nat
  deriving DecidableEq

/-- A directory entry that is no directory: a file, or a link or device, which are left alone. -/
inductive Entry
  | file
  | other
  deriving DecidableEq

inductive Signal
  | kill
  | terminate
  deriving DecidableEq

inductive OriginReading
  | printed (output : ByteArray)
  | exited (code : Nat)
  | died (signal : Signal)
  | unavailable (reason : IoError)

namespace OriginReading

def url : OriginReading → Except Text Text
  | printed output =>
      match String.fromUTF8? output with
      | some url => .ok url.toList
      | none => .error "origin url is not valid UTF-8".toList
  | exited code => .error ("git exited with exit status: ".toList ++ Text.decimal code)
  | died .kill => .error "git exited with signal: 9 (SIGKILL)".toList
  | died .terminate => .error "git exited with signal: 15 (SIGTERM)".toList
  | unavailable reason => .error reason.message

def outcome (root : Path) (reading : OriginReading) : Except Error Text :=
  reading.url.mapError (.originUnreadable root)

end OriginReading

/-- What the program asks of the machine it runs on. -/
structure Host (m : Type → Type) where
  workingDirectory : m Path
  /-- What a path leads to through links. -/
  status : Path → m (Except IoError Status)
  read : Path → m (Except IoError ByteArray)
  /-- What lies below a path as it is listed from there, links not followed except at the path
  itself if it leads to a directory. -/
  tree : Path → m (Option (Tree Entry))
  origin : Path → m (Except Error Text)
  /-- The order in which a run meets the entries of a hash table. -/
  arrange : List (Text × Text) → m (List (Text × Text))
  /-- Whether a path is text. The text of one that is not is how it is shown. -/
  isUnicode : Path → m Bool

namespace Host

variable [Monad m]

def pathExists (host : Host m) (path : Path) : m Bool := do
  return (← host.status path).toBool

def isDirectory (host : Host m) (path : Path) : m Bool := do
  match ← host.status path with
  | .ok status => return status.isDirectory
  | .error _ => return false

def readText (host : Host m) (path : Path) : m (Except IoError Text) := do
  match ← host.read path with
  | .error reason => return .error reason
  | .ok bytes =>
      match String.fromUTF8? bytes with
      | none => return .error .invalidUtf8
      | some text => return .ok text.toList

end Host

end TrackerLinks
