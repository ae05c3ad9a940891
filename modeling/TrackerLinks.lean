import TrackerLinks.Machine
import TrackerLinks.Main
import TrackerLinks.Proofs.Command.Scan
import TrackerLinks.Proofs.Link.Fidelity
import TrackerLinks.Proofs.Link.Returns
import TrackerLinks.Proofs.Position.Bijection
import TrackerLinks.Proofs.Repository.Nearest
import TrackerLinks.Proofs.Comment.Splitting
import TrackerLinks.Proofs.Position.Translation
import TrackerLinks.Proofs.Link.Splitting
import TrackerLinks.Proofs.Repository.RemoteUrl
import TrackerLinks.Proofs.Repository.Protocols
import TrackerLinks.Proofs.Command.Failure
import TrackerLinks.Proofs.Reference.Extraction
import TrackerLinks.Proofs.Repository.Credentials
import TrackerLinks.Proofs.Repository.WebUrl
import TrackerLinks.Proofs.Repository.RoundTrip
import TrackerLinks.Proofs.Comment.WholeLines
import TrackerLinks.Proofs.Position.Order
import TrackerLinks.Proofs.Repository.Outcome
import TrackerLinks.Proofs.Tree.Walk
import TrackerLinks.Proofs.Link.Trailing
import TrackerLinks.Proofs.Link.Target
import TrackerLinks.Proofs.Document.Suggestion
import TrackerLinks.Proofs.Language.Overrides
import TrackerLinks.Proofs.Command.Comments
