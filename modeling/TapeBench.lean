import TapeBench.Addressed.Cpu
import TapeBench.Connection
import TapeBench.Document.Form
import TapeBench.Proofs.Meaning.Refinement
import TapeBench.Proofs.SeparatePin.Agreement
import TapeBench.Proofs.Serial.Agreement
import TapeBench.Proofs.Serial.Protocol
import TapeBench.Recorded
import TapeBench.Scripted.Device
import TapeBench.Scripted.Link
import TapeBench.SeparatePin.Cpu
import TapeBench.Serial.Chip
import TapeBench.Suite.Standard
import TapeBench.Proofs.Trajectory
import TapeBench.Proofs.Verdict
import TapeBench.Proofs.Serial.Budget
import TapeBench.Proofs.History
import TapeBench.Proofs.Replay
import TapeBench.Proofs.Trace
import TapeBench.Proofs.Addressed.Wrapped
import TapeBench.Proofs.Reuse
import TapeBench.Proofs.Stream.Law
import TapeBench.Proofs.Meaning.Inert
import TapeBench.Proofs.Core.Partner
import TapeBench.Proofs.Serial.Retry
import TapeBench.Proofs.Serial.AnyHost
import TapeBench.Proofs.Serial.Inputs
import TapeBench.Proofs.Sampling
import TapeBench.Proofs.Aborted
import TapeBench.Proofs.Core.Count
import TapeBench.Proofs.Core.Listening
import TapeBench.Proofs.Suite
import TapeBench.Proofs.SeparatePin.Port
import TapeBench.Proofs.Accounting
