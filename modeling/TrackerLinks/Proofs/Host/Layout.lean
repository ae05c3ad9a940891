import TrackerLinks.Discovery

namespace TrackerLinks

/-- Hosts on which every search for a repository takes the same way. Files may be there on one of
them only, of different content and size, and readable or not. -/
structure Host.SameLayout (host host' : Host Id) : Prop where
  workingDirectory_eq : host.workingDirectory = host'.workingDirectory
  isDirectory_eq (path : Path) : host.isDirectory path = host'.isDirectory path
  marker_eq (directory : Path) :
    host.pathExists (Path.join directory Repository.marker) =
      host'.pathExists (Path.join directory Repository.marker)
  origin_eq : host.origin = host'.origin

namespace Host.SameLayout

variable {host host' : Host Id}

theorem startDirectory_eq (same : host.SameLayout host') (path : Path) :
    Repository.startDirectory host path = Repository.startDirectory host' path := by
  rw [Repository.startDirectory, Repository.startDirectory, same.workingDirectory_eq,
    funext same.isDirectory_eq]

theorem rootAbove?_eq (same : host.SameLayout host') (start : Path) :
    Repository.rootAbove? host start = Repository.rootAbove? host' start := by
  rw [Repository.rootAbove?, Repository.rootAbove?, funext same.marker_eq]

theorem ofPath_eq (same : host.SameLayout host') (path : Path) :
    Repository.ofPath host path = Repository.ofPath host' path := by
  have atRoot (root : Path) : Repository.atRoot host root = Repository.atRoot host' root := by
    rw [Repository.atRoot, Repository.atRoot, same.origin_eq]
  rw [Repository.ofPath, Repository.ofPath, same.startDirectory_eq path,
    funext same.rootAbove?_eq, funext atRoot]

end Host.SameLayout

end TrackerLinks
