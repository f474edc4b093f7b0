import Cancelable.Simulation.Bench
import Cancelable.Width

/-!
# Work on the bench

What a simulated operation does once it has been recorded.  Work that stops leaves the bench as it
was.  The operations themselves are written for any monad that looks at the bench, replaces it and
can stop, so that they do not settle what becomes of a change if the work is stopped after it.
-/

namespace Cancelable
namespace Simulation

/-! ## Rejections -/

/-- Why a simulated resource rejects an operation. -/
inductive Rejection where
  | closed (oid : Int)
  | inactive
  | noObject (oid : Int)
  | negativePosition (target : Int)
  | invalidLength (len : Int)
  | noField (field : Int)
  | unknownName (name : String)
  | unknownFunction (fnid : Int)
  | integerOutOfRange
  deriving DecidableEq, Repr

def Rejection.text : Rejection → String
  | closed oid => "large object " ++ toString oid ++ " is closed"
  | inactive => "copy is not active"
  | noObject oid => "large object " ++ toString oid ++ " does not exist"
  | negativePosition target => "seek to negative offset " ++ toString target
  | invalidLength len => "invalid truncate length " ++ toString len
  | noField field => "no field " ++ toString field
  | unknownName name => "fastpath function " ++ name ++ " is unknown"
  | unknownFunction fnid => "fastpath function " ++ toString fnid ++ " is unknown"
  | integerOutOfRange => "integer result out of range"

/-- Why an operation has no value. -/
inductive Stop where
  | fault (failure : Failure)
  | rejected (why : Rejection)
  /-- A sum left the integers of 64 bits, which breaks off the caller. -/
  | overflow

def Stop.overflowText : String := "attempt to add with overflow"

/-! ## Work -/

/-- Work on the bench that yields an `α`, or stops and changes nothing. -/
abbrev Work (α : Type) : Type :=
  StateT Bench (Except Stop) α

namespace Work

/-- The sum of two integers of 64 bits. -/
def sum (m n : Int) : Except Stop Int :=
  if Width.int64.holds (m + n) then .ok (m + n) else .error .overflow

variable {m : Type → Type} [MonadLiftT (Except Stop) m]

def reject {α : Type} (why : Rejection) : m α :=
  liftM (Except.error (.rejected why) : Except Stop α)

def require [Monad m] (condition : Bool) (why : Rejection) : m Unit :=
  if condition then pure () else reject why

end Work
end Simulation
end Cancelable
