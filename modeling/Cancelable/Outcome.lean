import Cancelable.Failure

/-!
# Interruptions and outcomes

A program that has run to its end has succeeded with a value, failed, or been canceled.  An
interruption is one of the two ways to end without a value; an outcome is all three, and the two
views of an ended run convert into each other without loss.
-/

namespace Cancelable

/-! ## Interruptions -/

/-- Why a program has no value. -/
inductive Interrupted where
  | errored (failure : Failure)
  | canceled
  deriving Repr

namespace Interrupted

def text : Interrupted → String
  | errored f => "program failed: " ++ f.text
  | canceled => "program canceled"

def structured : Interrupted → String
  | errored f => Text.tuple "Errored" [f.structured]
  | canceled => "Canceled"

def sources : Interrupted → List Failure
  | errored f => f :: f.sources
  | canceled => []

/-- Interruptions are the same when both are cancellations or their failures are the same. -/
def same : Interrupted → Interrupted → Bool
  | errored f, errored g => f.same g
  | canceled, canceled => true
  | _, _ => false

def isCanceled : Interrupted → Bool
  | errored _ => false
  | canceled => true

end Interrupted

def Failure.interrupted? : Failure → Option Interrupted
  | .interruption _ inner => some (.errored inner)
  | .cancellation _ => some .canceled
  | _ => none

/-! ## Outcomes -/

/-- How a program ended. -/
inductive Outcome (α : Type) where
  | succeeded (value : α)
  | errored (failure : Failure)
  | canceled
  deriving Repr

namespace Outcome

variable {α β : Type}

def isSucceeded : Outcome α → Bool
  | succeeded _ => true
  | _ => false

def isErrored : Outcome α → Bool
  | errored _ => true
  | _ => false

def isCanceled : Outcome α → Bool
  | canceled => true
  | _ => false

def failure? : Outcome α → Option Failure
  | errored f => some f
  | _ => none

def map (f : α → β) : Outcome α → Outcome β
  | succeeded a => succeeded (f a)
  | errored e => errored e
  | canceled => canceled

def toExcept : Outcome α → Except Interrupted α
  | succeeded a => .ok a
  | errored f => .error (.errored f)
  | canceled => .error .canceled

def ofExcept : Except Interrupted α → Outcome α
  | .ok a => succeeded a
  | .error (.errored f) => errored f
  | .error .canceled => canceled

@[simp] theorem ofExcept_toExcept (o : Outcome α) : ofExcept o.toExcept = o := by
  cases o <;> rfl

@[simp] theorem toExcept_ofExcept (r : Except Interrupted α) : (ofExcept r).toExcept = r := by
  rcases r with (_ | _) | _ <;> rfl

/-- Outcomes are the same when both have equal values, the same failure, or were canceled. -/
def same [DecidableEq α] : Outcome α → Outcome α → Bool
  | succeeded a, succeeded b => a = b
  | errored f, errored g => f.same g
  | canceled, canceled => true
  | _, _ => false

def structured (value : α → String) : Outcome α → String
  | succeeded a => Text.tuple "Succeeded" [value a]
  | errored f => Text.tuple "Errored" [f.structured]
  | canceled => "Canceled"

/-! ## Expectations

Each takes the outcome apart as one of the three cases, and gives the text of the complaint when it
is another. -/

def expectSucceeded : Outcome α → Except String α
  | succeeded a => .ok a
  | errored f => .error ("Expected Succeeded, got Errored: " ++ f.text)
  | canceled => .error "Expected Succeeded, got Canceled"

def expectErrored : Outcome α → Except String Failure
  | errored f => .ok f
  | succeeded _ => .error "Expected Errored, got Succeeded"
  | canceled => .error "Expected Errored, got Canceled"

def expectCanceled : Outcome α → Except String Unit
  | canceled => .ok ()
  | succeeded _ => .error "Expected Canceled, got Succeeded"
  | errored f => .error ("Expected Canceled, got Errored: " ++ f.text)

end Outcome
end Cancelable
