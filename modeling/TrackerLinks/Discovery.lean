import TrackerLinks.Error
import TrackerLinks.Host
import TrackerLinks.Repository

/-! Which repository a path belongs to: the nearest marked directory above it, as it is spelled. -/

namespace TrackerLinks

namespace Repository

variable [Monad m]

def marker : Name :=
  ".git".toList

def startDirectory (host : Host m) (path : Path) : m Path := do
  let full := (Path.absolute? (← host.workingDirectory) path).getD path
  if ← host.isDirectory full then return full
  return (Path.parent? full).getD ".".toList

def rootAbove? (host : Host m) (start : Path) : m (Option Path) :=
  (Path.ancestors start).findM? fun directory => host.pathExists (Path.join directory marker)

def atRoot (host : Host m) (root : Path) : m (Except Error Repository) := do
  match ← host.origin root with
  | .error error => return .error error
  | .ok url =>
      match ofRemoteUrl? url with
      | some repository => return .ok repository
      | none => return .error (.unrecognizedRemote (Text.trim url))

def ofPath (host : Host m) (path : Path) : m (Except Error Repository) := do
  let start ← startDirectory host path
  match ← rootAbove? host start with
  | none => return .error (.noRepositoryFound start)
  | some root => atRoot host root

/-- The repository of a path, no matter why there is none. -/
def ofPath? (host : Host m) (path : Path) : m (Option Repository) := do
  return (← ofPath host path).toOption

end Repository

end TrackerLinks
