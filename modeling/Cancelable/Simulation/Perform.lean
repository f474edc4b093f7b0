import Cancelable.Simulation.Connection
import Cancelable.Simulation.Copy
import Cancelable.Simulation.Directory
import Cancelable.Simulation.Fastpath
import Cancelable.Simulation.LargeObject

/-!
# Performing an operation

Every operation on a simulated resource goes through the same three stages.  The resource may turn
it away, which leaves no trace; then the probe lets a scripted failure happen or records the
operation; then the operation does its work.
-/

namespace Cancelable
namespace Simulation
namespace Bench

/-- Why a resource turns an operation away: nothing can be done with a closed large object, and no
rows go into a stream that is not active. -/
def turnsAway (b : Bench) : {a : Algebra} → Ref a → Op a → Option Rejection
  | .largeObject, r, _ =>
    let object := b.largeObjects.get r.index
    if object.closed then some (.closed object.oid) else none
  | .copyIn, r, .writeRow _ => inactive r
  | .copyIn, r, .flush => inactive r
  | .copyIn, r, .finish => inactive r
  | _, _, _ => none
where
  /-- A stream that is not active. -/
  inactive (r : Ref .copyIn) : Option Rejection :=
    if (b.copyIns.get r.index).active then none else some .inactive

section Act

variable {m : Type → Type} [Monad m] [MonadStateOf Bench m] [MonadLiftT (Except Stop) m]

/-- What an operation does once it has been recorded. -/
def act : {a : Algebra} → Ref a → (o : Op a) → m (Op.Answer Ref o)
  | .connection, r, o => Connection.act r o
  | .copyIn, r, o => CopyIn.act r o
  | .copyOut, r, o => CopyOut.act r o
  | .copyManager, r, o => CopyManager.act r o
  | .fastpath, r, o => Fastpath.act r o
  | .largeObject, r, o => LargeObject.act r o
  | .directory, r, o => Directory.act r o

end Act

def work {a : Algebra} (r : Ref a) (o : Op a) : Work (Op.Answer Ref o) :=
  act r o

def perform (b : Bench) {a : Algebra} (r : Ref a) (o : Op a) :
    Except Stop (Op.Answer Ref o) × Bench :=
  match b.turnsAway r o with
  | some why => (.error (.rejected why), b)
  | none =>
    match b.hit (b.probeOf r) o.key o.detail with
    | (some failure, b) => (.error (.fault failure), b)
    | (none, b) =>
      match (work r o).run b with
      | .ok (x, b) => (.ok x, b)
      | .error stop => (.error stop, b)

end Bench
end Simulation
end Cancelable
