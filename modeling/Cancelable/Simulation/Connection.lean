import Cancelable.Simulation.Work
import Cancelable.Text.Doubled

/-!
# Simulated connections

A connection hands out its own resources, the same each time, and each notification once.
-/

namespace Cancelable
namespace Simulation
namespace Connection

def parameter? : String → Option String
  | "server_version" => some "16.4"
  | "client_encoding" => some "UTF8"
  | _ => none

variable {m : Type → Type} [Monad m] [MonadStateOf Bench m] [MonadLiftT (Except Stop) m]

def update (r : Ref .connection) (f : Connection → Connection) : m Unit :=
  modify fun b =>
    { b with connections := b.connections.set r.index (f (b.connections.get r.index)) }

def act (r : Ref .connection) : (o : Connection.Op) → m (Connection.Op.Answer Ref o)
  | .backendPid => do
    return ((← get).connections.get r.index).pid
  | .copyApi => do
    return ((← get).connections.get r.index).copies
  | .fastpathApi => do
    return ((← get).connections.get r.index).fastpath
  | .largeObjectApi => do
    return ((← get).connections.get r.index).directory
  | .notifications => do
    let waiting := ((← get).connections.get r.index).notifications
    update r fun c => { c with notifications := [] }
    return waiting
  | .escapeIdentifier identifier => pure (Text.Doubled.enclose '"' identifier)
  | .escapeLiteral literal => pure (Text.Doubled.enclose '\'' literal)
  | .parameterStatus name => pure (parameter? name)
  | .prepareThreshold => do
    return ((← get).connections.get r.index).threshold
  | .setPrepareThreshold threshold => update r fun c => { c with threshold }
  | .cancelQuery => pure ()

end Connection
end Simulation
end Cancelable
