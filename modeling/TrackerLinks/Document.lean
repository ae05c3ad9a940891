import TrackerLinks.Discovery
import TrackerLinks.Language
import TrackerLinks.Link

namespace TrackerLinks

variable [Monad m]

/-- The settings of a directory, which are the standard ones when it has no settings file. Of two
languages for one extension the one that the run meets first holds. -/
def Settings.load (host : Host m) (directory : Path) : m (Except Error Settings) := do
  match ← host.readText (Path.join directory Settings.fileName) with
  | .error .notFound => return .ok standard
  | .error reason => return .error (.io reason)
  | .ok text =>
      match ofText? text with
      | some settings =>
          return .ok { settings with languages := ← host.arrange settings.languages }
      | none => return .error .invalidSettings

structure Document where
  language : Text
  path : Path
  text : Text
  deriving DecidableEq

structure DocumentLinks where
  links : List Link
  repository : Option Repository
  deriving DecidableEq

namespace Document

/-- The document at a path, in the given language or the one that its name tells. -/
def load (host : Host m) (settings : Settings) (path : Path) (language? : Option Text) :
    m (Except Error Document) := do
  match ← host.status path with
  | .error .notFound => return .error (.fileNotFound path)
  | .error reason => return .error (.io reason)
  | .ok status =>
      if settings.maxFileBytes < status.size then
        return .error (.fileTooLarge path settings.maxFileBytes status.size)
      match ← host.readText path with
      | .error reason => return .error (.io reason)
      | .ok text =>
          return .ok
            { language := language?.getD (Language.ofPath settings.languages path)
              path := path
              text := text }

/-- A document outside a repository has no links. -/
def links (host : Host m) (document : Document) : m DocumentLinks := do
  match ← Repository.ofPath? host document.path with
  | none => return ⟨[], none⟩
  | some repository =>
      return ⟨TrackerLinks.links document.language document.text repository, some repository⟩

end Document

end TrackerLinks
