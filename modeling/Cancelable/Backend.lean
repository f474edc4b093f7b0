import Cancelable.Host
import Cancelable.Operation
import Cancelable.Outcome

/-!
# Backends

A backend is what programs run against: the world, the handles of each algebra, what an operation
on a handle does, and two clocks.  Programs and their interpretation are the same for every
backend.
-/

namespace Cancelable

/-- What programs run against. -/
structure Backend where
  /-- What operations read and change. -/
  World : Type
  /-- References to the resources of an algebra. -/
  Handle : Algebra → Type
  invoke : {a : Algebra} → Handle a → (o : Op a) → Host World (Except Failure (Op.Answer Handle o))
  monotonic : Host World Nat
  realtime : Host World Nat

end Cancelable
