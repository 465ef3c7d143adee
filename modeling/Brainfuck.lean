import Brainfuck.Main
import Brainfuck.Proofs.Code.Balance
import Brainfuck.Proofs.Code.JumpTable
import Brainfuck.Proofs.Code.Partner
import Brainfuck.Proofs.Code.Sequence
import Brainfuck.Proofs.Encoding.Rounding
import Brainfuck.Proofs.Encoding.RoundTrip
import Brainfuck.Proofs.Semantics.Matching
import Brainfuck.Proofs.Semantics.Perseverance
import Brainfuck.Proofs.Semantics.Scanning
import Brainfuck.Proofs.Semantics.Structured
import Brainfuck.Proofs.Input.Retrying
import Brainfuck.Proofs.Input.Unfailing
import Brainfuck.Proofs.Output.Delivery
import Brainfuck.Proofs.Output.Transmission
import Brainfuck.Proofs.Output.Retransmission
import Brainfuck.Proofs.Output.Streaming
import Brainfuck.Proofs.Semantics.Moments
import Brainfuck.Proofs.Semantics.Sequence
import Brainfuck.Proofs.CommandLine.Opening
import Brainfuck.Proofs.CommandLine.Literal
import Brainfuck.Proofs.CommandLine.Verdict
import Brainfuck.Proofs.CommandLine.Pipeline
import Brainfuck.Proofs.CommandLine.CodecChoice
import Brainfuck.Machine.Calls
import Brainfuck.Proofs.Code.Comments
import Brainfuck.Proofs.Semantics.Calls
import Brainfuck.Proofs.Semantics.Bounds
import Brainfuck.Proofs.Input.Yield
import Brainfuck.Proofs.CommandLine.Acceptance
import Brainfuck.Proofs.Output.Restoration
import Brainfuck.Proofs.Code.Localisation
import Brainfuck.Proofs.Encoding.Confinement
import Brainfuck.Proofs.Encoding.Cost
import Brainfuck.Proofs.Semantics.TapeLength
import Brainfuck.Proofs.Semantics.Mirror
import Brainfuck.Proofs.Semantics.Segment
import Brainfuck.Proofs.Semantics.DeadLoop
import Brainfuck.Proofs.Semantics.Schedule
import Brainfuck.Proofs.Output.Copying
import Brainfuck.Proofs.Output.Requests
import Brainfuck.Proofs.Semantics.Winding
import Brainfuck.Proofs.Output.CellForms
