import Cancelable.Operation
import Cancelable.Outcome

/-!
# Traces

What is worth reporting while programs run.  Each event is recorded with the programs that were
open around it: the one that was started and those embedded in it.
-/

namespace Cancelable

/-- How much attention an event asks for. -/
inductive Level where
  | trace
  | debug
  | warn
  deriving DecidableEq, Repr

def Level.name : Level → String
  | trace => "TRACE"
  | debug => "DEBUG"
  | warn => "WARN"

/-- What happened. -/
inductive Happening where
  /-- An operation is about to be performed on a handle. -/
  | primitiveCall (a : Algebra) (o : Op a)
  /-- A handler is about to be given a failure. -/
  | recovering (a : Algebra) (failure : Failure)
  | cancellationObserved
  | finalizerFailed (failure : Failure)
  | ended (a : Algebra) (result : Except Interrupted Unit)

/-- Something that happened, and the algebras of the programs open around it, innermost first. -/
structure Event where
  happening : Happening
  spans : List Algebra

namespace Event

/-- The attention an event asks for. -/
def level (e : Event) : Level :=
  match e.happening with
  | .primitiveCall .. => .trace
  | .recovering .. => .debug
  | .cancellationObserved => .debug
  | .finalizerFailed _ => .warn
  | .ended _ (.ok ()) => .trace
  | .ended _ (.error _) => .debug

/-- The message of an event. -/
def message (e : Event) : String :=
  match e.happening with
  | .primitiveCall .. => "primitive call"
  | .recovering _ f => "recovering from failure: " ++ f.text
  | .cancellationObserved => "cancellation observed"
  | .finalizerFailed f => "cancellation finalizer failed: " ++ f.text
  | .ended _ (.ok ()) => "program succeeded"
  | .ended _ (.error i) => i.text

/-- The named texts of an event. -/
def fields (e : Event) : List (String × String) :=
  ("message", e.message) ::
    match e.happening with
    | .primitiveCall a o => [("algebra", a.name), ("op", o.structured)]
    | .recovering a _ => [("algebra", a.name)]
    | .cancellationObserved => []
    | .finalizerFailed _ => []
    | .ended a _ => [("algebra", a.name)]

/-- The names of the open programs, outermost first: the first was started, the others are
embedded. -/
def spanNames (e : Event) : List String :=
  match e.spans.reverse with
  | [] => []
  | a :: rest => ("program:" ++ a.name) :: rest.map fun b => "embedded:" ++ b.name

end Event
end Cancelable
