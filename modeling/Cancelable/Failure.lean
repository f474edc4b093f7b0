import Cancelable.Text.Record

/-!
# Failures

A failure is the reason why a program ended without a value.  It carries a label, the moment at
which it was made, and that label alone decides whether two failures are the same one: copies of a
failure keep it, and a second failure with equal text has another.

A failure may enclose another failure, directly or as an interruption, so failures nest.  Two
texts are read off a failure: the message a reader sees, and the structured text that shows the
nesting.
-/

namespace Cancelable

/-! ## Labels -/

/-- The moment at which a failure was made, and its place among those made then. -/
structure Label where
  instant : Nat
  /-- The place within the moment, innermost count first. -/
  place : List Nat
  deriving DecidableEq, Repr

/-! ## Failures -/

/-- What a failing operation of the surrounding system reports as the kind of its error. -/
inductive SystemError where
  | brokenPipe
  | timedOut
  | notFound
  | other
  deriving DecidableEq, Repr

def SystemError.name : SystemError → String
  | .brokenPipe => "BrokenPipe"
  | .timedOut => "TimedOut"
  | .notFound => "NotFound"
  | .other => "Other"

/-- Why a program ended without a value. -/
inductive Failure where
  | message (label : Label) (text : String)
  | system (label : Label) (kind : SystemError) (text : String)
  /-- Another failure, enclosed as it is. -/
  | wrapped (label : Label) (inner : Failure)
  | interruption (label : Label) (inner : Failure)
  | cancellation (label : Label)
  deriving Repr

namespace Failure

def label : Failure → Label
  | message l _ => l
  | system l _ _ => l
  | wrapped l _ => l
  | interruption l _ => l
  | cancellation l => l

/-- Failures are compared by identity. -/
def same (f g : Failure) : Bool :=
  f.label = g.label

/-! ## Texts -/

/-- The message: that of the innermost error, with a note for each interruption around it. -/
def text : Failure → String
  | message _ t => t
  | system _ _ t => t
  | wrapped _ inner => inner.text
  | interruption _ inner => "program failed: " ++ inner.text
  | cancellation _ => "program canceled"

def structured : Failure → String
  | message _ t => Text.tuple "Failure" [Text.tuple "Message" [Text.quoted t]]
  | system _ kind t =>
    Text.tuple "Failure"
      [Text.record "Custom" [("kind", kind.name), ("error", Text.quoted t)]]
  | wrapped _ inner => Text.tuple "Failure" [inner.structured]
  | interruption _ inner => Text.tuple "Failure" [Text.tuple "Errored" [inner.structured]]
  | cancellation _ => Text.tuple "Failure" ["Canceled"]

def kind : Failure → String
  | message .. => "other"
  | system _ kind _ => "io:" ++ kind.name
  | wrapped .. => "failure"
  | interruption .. => "interrupted"
  | cancellation .. => "interrupted"

/-! ## Sources -/

/-- The failure underneath: an interruption by a failure has that failure as its source, and a
failure that encloses another has the source of the enclosed one. -/
def source? : Failure → Option Failure
  | message .. => none
  | system .. => none
  | wrapped _ inner => inner.source?
  | interruption _ inner => some inner
  | cancellation .. => none

def sources : Failure → List Failure
  | message .. => []
  | system .. => []
  | wrapped _ inner => inner.sources
  | interruption _ inner => inner :: inner.sources
  | cancellation .. => []

/-- The sources are the source, its source, and so on. -/
theorem sources_eq (f : Failure) :
    f.sources = match f.source? with
      | none => []
      | some g => g :: g.sources := by
  induction f with
  | message | system | interruption | cancellation => rfl
  | wrapped _ inner ih => exact ih

/-! ## Enclosed errors -/

/-- The failure this one encloses as it is. -/
def unwrapped? : Failure → Option Failure
  | wrapped _ inner => some inner
  | _ => none

end Failure
end Cancelable
