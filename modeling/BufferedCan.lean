import BufferedCan.Program
import BufferedCan.Word.Bytes
import BufferedCan.Register.Format
import BufferedCan.BitTiming
import BufferedCan.Buffer.Code
import BufferedCan.Frame.Draft
import BufferedCan.Settings
import BufferedCan.Controller.Traffic
import BufferedCan.Controller.Status
import BufferedCan.Hardware.Wire
import BufferedCan.Hardware.Probe
import BufferedCan.Cipher.Aes
import BufferedCan.Cipher.Client
import BufferedCan.Cipher.Script
import BufferedCan.Exchange.CommandLink
import BufferedCan.Bench.Window
import BufferedCan.Bench.Wire
import BufferedCan.Proofs.Cipher.Operations
import BufferedCan.Proofs.Network.Refinement
import BufferedCan.Proofs.Network.Origin
import BufferedCan.Proofs.Network.Reconfiguration
import BufferedCan.Proofs.Network.Typestate
import BufferedCan.Proofs.Network.Ownership
import BufferedCan.Proofs.Exchange.Match
import BufferedCan.Proofs.Exchange.Replies
import BufferedCan.Proofs.Network.Silence
import BufferedCan.Proofs.Exchange.Token
import BufferedCan.Proofs.Controller.Clearance
import BufferedCan.Proofs.Network.Unsent
import BufferedCan.Proofs.Exchange.Agreement
import BufferedCan.Proofs.Cipher.Calls
import BufferedCan.Proofs.Cipher.Recovery
import BufferedCan.Proofs.Controller.Reset
import BufferedCan.Proofs.Controller.Acceptance
import BufferedCan.Proofs.Controller.Faults
import BufferedCan.Proofs.Controller.Waiting
import BufferedCan.Proofs.Cipher.Discipline
import BufferedCan.Proofs.Exchange.Footprint
import BufferedCan.Proofs.Exchange.Retrieval
import BufferedCan.Proofs.Frame.Fidelity
import BufferedCan.Proofs.Frame.Echo
import BufferedCan.Proofs.Hardware.Storage
import BufferedCan.Proofs.Register.Setters
import BufferedCan.Proofs.Exchange.Poll
import BufferedCan.Proofs.Exchange.Rhythm
