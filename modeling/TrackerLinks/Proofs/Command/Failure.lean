import TrackerLinks.Command.Arguments
import TrackerLinks.Proofs.Command.Scan
import TrackerLinks.Proofs.Error.Printed
import TrackerLinks.Proofs.Host.Layout

namespace TrackerLinks

variable {host host' : Host Id}

namespace Command

variable {command : Command} {code : Nat} {error : Error}

section Outcomes

variable {outcome : Outcome}

end Outcomes

/-- A file system with one source file, whose name is no text. -/
def garbled : Host Id :=
  { lone ["a.rs".toList] none with isUnicode := fun _ => false }

end Command

end TrackerLinks
