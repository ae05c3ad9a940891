import TrackerLinks.Document

namespace TrackerLinks.Settings

variable {host : Host Id} {directory : Path} {settings : Settings} {error : Error}

/-- The settings that a directory has, which are the standard ones only where no file gives any. The
languages of a file stand in the order in which the run meets them. -/
inductive Hold (host : Host Id) (directory : Path) : Settings → Prop
  | standard (missing : host.read (Path.join directory fileName) = .error .notFound) :
      Hold host directory standard
  | given {bytes : ByteArray} {text : String} {settings : Settings}
      (found : host.read (Path.join directory fileName) = .ok bytes)
      (decoded : String.fromUTF8? bytes = some text)
      (accepted : ofText? text.toList = some settings) :
      Hold host directory { settings with languages := host.arrange settings.languages }

theorem load_of_hold (hold : Hold host directory settings) :
    load host directory = .ok settings := by
  cases hold with
  | standard missing => simp only [load, Host.readText, missing, bind, pure]
  | given found decoded accepted =>
      simp only [load, Host.readText, found, decoded, accepted, bind, pure]

end TrackerLinks.Settings
