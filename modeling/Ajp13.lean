import Ajp13.Request
import Ajp13.Session
import Ajp13.Proofs.Chunks
import Ajp13.Proofs.Invariant
import Ajp13.Proofs.Bytewise.Onward
import Ajp13.Proofs.Grammar.Respelled
import Ajp13.Proofs.Grammar.Skipped
import Ajp13.Proofs.Grammar.Strings
import Ajp13.Proofs.RoundTrip.Arrival
import Ajp13.Proofs.RoundTrip.Checks
import Ajp13.Proofs.RoundTrip.Restated
import Ajp13.Proofs.Stream.Boundary
import Ajp13.Proofs.Stream.Delivered
import Ajp13.Proofs.Stream.Framing
import Ajp13.Proofs.Stream.Pipeline
import Ajp13.Proofs.Stream.Progress
import Ajp13.Proofs.Stream.Refused
import Ajp13.Proofs.Stream.Setters
import Ajp13.Proofs.Stream.Uris
