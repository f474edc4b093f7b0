import Cancelable.Algebra
import Cancelable.Backend
import Cancelable.Bytes
import Cancelable.Effect
import Cancelable.Failure
import Cancelable.Fiber
import Cancelable.Host
import Cancelable.Machine.Run
import Cancelable.Machine.Stack
import Cancelable.Machine.Step
import Cancelable.Machine.Turn
import Cancelable.Operation
import Cancelable.Outcome
import Cancelable.Program
import Cancelable.Program.ReadAll
import Cancelable.Proofs.Account
import Cancelable.Proofs.Attachment
import Cancelable.Proofs.Behaviour
import Cancelable.Proofs.Blocking
import Cancelable.Proofs.Bounds
import Cancelable.Proofs.Chronicle
import Cancelable.Proofs.Chunking
import Cancelable.Proofs.Cleanup
import Cancelable.Proofs.Company
import Cancelable.Proofs.Compilation
import Cancelable.Proofs.Consistency
import Cancelable.Proofs.Correspondence
import Cancelable.Proofs.Descriptor
import Cancelable.Proofs.Directory
import Cancelable.Proofs.Discipline
import Cancelable.Proofs.Draining
import Cancelable.Proofs.Embedding
import Cancelable.Proofs.Finality
import Cancelable.Proofs.Finalizer
import Cancelable.Proofs.Flow
import Cancelable.Proofs.Frame
import Cancelable.Proofs.Functions
import Cancelable.Proofs.Harmless
import Cancelable.Proofs.History
import Cancelable.Proofs.InPlace
import Cancelable.Proofs.Isolation
import Cancelable.Proofs.Level
import Cancelable.Proofs.Lines
import Cancelable.Proofs.MaskAlgebra
import Cancelable.Proofs.Meaning
import Cancelable.Proofs.Member
import Cancelable.Proofs.MonadLaws
import Cancelable.Proofs.Nesting
import Cancelable.Proofs.Notifications
import Cancelable.Proofs.Objects
import Cancelable.Proofs.Oblivious
import Cancelable.Proofs.Origin
import Cancelable.Proofs.Outline
import Cancelable.Proofs.Performance
import Cancelable.Proofs.PollFree
import Cancelable.Proofs.Polls
import Cancelable.Proofs.Position
import Cancelable.Proofs.Probes
import Cancelable.Proofs.Promptness
import Cancelable.Proofs.Provenance
import Cancelable.Proofs.Quoting
import Cancelable.Proofs.Recovery
import Cancelable.Proofs.Region
import Cancelable.Proofs.Registry
import Cancelable.Proofs.Relay
import Cancelable.Proofs.Resource
import Cancelable.Proofs.Restoration
import Cancelable.Proofs.RowsIn
import Cancelable.Proofs.RowsOut
import Cancelable.Proofs.Sharing
import Cancelable.Proofs.Step
import Cancelable.Proofs.Streaming
import Cancelable.Proofs.Suspension
import Cancelable.Proofs.Termination
import Cancelable.Proofs.Totals
import Cancelable.Proofs.Tracing
import Cancelable.Proofs.Transfer
import Cancelable.Proofs.Truncation
import Cancelable.Proofs.Uses
import Cancelable.Proofs.WriteBack
import Cancelable.Scenario.Session
import Cancelable.Scene
import Cancelable.Simulation.Perform
import Cancelable.Trace
import Cancelable.Width
