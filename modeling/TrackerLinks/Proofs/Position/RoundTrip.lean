import TrackerLinks.Proofs.Position.Advance
import TrackerLinks.Proofs.Text.Lines

namespace TrackerLinks.Text

variable {text body before after : Text} {offset start : Nat}

end TrackerLinks.Text
