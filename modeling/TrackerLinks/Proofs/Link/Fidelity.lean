import TrackerLinks.Proofs.Link.WholeText
import TrackerLinks.Proofs.Position.RoundTrip

namespace TrackerLinks

variable {language text : Text} {repository : Repository} {reference : Reference} {link : Link}
  {start : Nat} {spelling : Spelling}

namespace Spelling

end Spelling

end TrackerLinks
