import Cancelable.Backend

/-!
# Programs

A program of an algebra is a tree that says what to do with a handle of that algebra and what
value to end with.  Its nodes are of two sorts.  Some only say how values flow: a value, a value
changed, a program chosen by a value.  The others are *operations*: calls on the handle, thunks,
failures, and the operations that concern cancellation and recovery.  Whoever runs a program looks
for a cancellation before each operation, and nowhere else.

A program is finite except for calls of named procedures, whose bodies are looked up only when a
call is reached; through them a program may repeat itself without bound.
-/

namespace Cancelable

/-! ## Hints -/

/-- How a suspended thunk wants to be run. -/
inductive SyncHint where
  | delay
  /-- As a blocking call. -/
  | blocking
  /-- As a blocking call that may be interrupted once. -/
  | interruptibleOnce
  /-- As a blocking call that may be interrupted again and again. -/
  | interruptibleMany
  deriving DecidableEq, Repr

namespace SyncHint

/-- Whether the thunk is a blocking call. -/
def isBlocking : SyncHint → Bool
  | delay => false
  | _ => true

def name : SyncHint → String
  | delay => "Delay"
  | blocking => "Blocking"
  | interruptibleOnce => "InterruptibleOnce"
  | interruptibleMany => "InterruptibleMany"

/-- All hints. -/
def all : List SyncHint := [delay, blocking, interruptibleOnce, interruptibleMany]

end SyncHint

/-! ## The tree -/

/-- Named procedures: for each algebra and each type of values, the procedures that stand for such
a program. -/
abbrev Procedures : Type 2 :=
  Algebra → Type → Type 1

/-- A program of the algebra `a` that ends with an `α`, over the backend `B`.  The family `P`
holds the procedures that may be called by name. -/
inductive Program (B : Backend) (P : Procedures) : Algebra → Type → Type 1 where
  | pure {a : Algebra} {α : Type} (x : α) : Program B P a α
  /-- The program that a piece of host code decides on.  This is not an operation: it stands for
  what a closure does while it makes the program it returns. -/
  | build {a : Algebra} {σ α : Type} (code : Host B.World σ) (k : σ → Program B P a α) :
      Program B P a α
  /-- The body of a procedure. -/
  | call {a : Algebra} {α : Type} (procedure : P a α) : Program B P a α
  | map {a : Algebra} {α β : Type} (p : Program B P a α) (f : α → Host B.World β) :
      Program B P a β
  | bind {a : Algebra} {α β : Type} (p : Program B P a α) (k : α → Program B P a β) :
      Program B P a β
  /-- An operation of the algebra, a blocking call. -/
  | op {a : Algebra} (o : Op a) : Program B P a (Op.Answer B.Handle o)
  /-- Host code that gets the handle itself, a blocking call. -/
  | raw {a : Algebra} {α : Type} (code : B.Handle a → Host B.World (Except Failure α)) :
      Program B P a α
  | delay {a : Algebra} {α : Type} (code : Host B.World α) : Program B P a α
  /-- A thunk that may fail, run as the hint says. -/
  | suspend {a : Algebra} {α : Type} (hint : SyncHint)
      (code : Host B.World (Except Failure α)) : Program B P a α
  | raise {a : Algebra} {α : Type} (failure : Failure) : Program B P a α
  | monotonic {a : Algebra} : Program B P a Nat
  | realtime {a : Algebra} : Program B P a Nat
  /-- Request the cancellation of the own fiber, and look for it at once. -/
  | canceled {a : Algebra} : Program B P a Unit
  | embed {a b : Algebra} {α : Type} (handle : B.Handle b) (p : Program B P b α) :
      Program B P a α
  /-- If `p` fails, go on with the program that the handler makes of the failure. -/
  | handleError {a : Algebra} {α : Type} (p : Program B P a α)
      (handler : Failure → Program B P a α) : Program B P a α
  /-- Run `p`, and then `q` whether `p` succeeded or failed. -/
  | forceR {a : Algebra} {α β : Type} (p : Program B P a α) (q : Program B P a β) :
      Program B P a β
  /-- A region: while the body runs, cancellation is put off. -/
  | uncancelable {a : Algebra} {α : Type} (body : Token → Program B P a α) : Program B P a α
  /-- Run `p` with the mask lowered again, if the region of the token is the innermost one. -/
  | poll {a : Algebra} {α : Type} (token : Token) (p : Program B P a α) : Program B P a α
  /-- If `p` is canceled, run the finalizer. -/
  | onCancel {a : Algebra} {α : Type} (p : Program B P a α) (finalizer : Program B P a Unit) :
      Program B P a α

/-- What each procedure stands for. -/
abbrev Bodies (B : Backend) (P : Procedures) : Type 1 :=
  {a : Algebra} → {α : Type} → P a α → Program B P a α

namespace Program

variable {B : Backend} {P : Procedures} {a : Algebra} {α β : Type}

/-! ## Derived programs -/

/-- The program that does nothing. -/
def unit : Program B P a Unit :=
  .pure ()

/-- Change the value by a function. -/
def mapPure (p : Program B P a α) (f : α → β) : Program B P a β :=
  .map p fun x => Host.pure (f x)

/-- Run `p`, and then `q` if `p` succeeded. -/
def andThen (p : Program B P a α) (q : Program B P a β) : Program B P a β :=
  .bind p fun _ => q

/-- Forget the value. -/
def void (p : Program B P a α) : Program B P a Unit :=
  p.mapPure fun _ => ()

/-- Turn a failure into a value. -/
def attempt (p : Program B P a α) : Program B P a (Except Failure α) :=
  .handleError (p.mapPure .ok) fun f => .pure (.error f)

/-! ## Structured texts -/

def structured (_ : Program B P a α) (output : String) : String :=
  Text.record "Program" [("algebra", Text.quoted a.name), ("output", Text.quoted output)]

def erasedText (_ : Program B P a α) : String :=
  Text.record "Erased" [("algebra", Text.quoted a.name)]

def embeddedText (_ : B.Handle a) (_ : Program B P a α) : String :=
  Text.record "Embedded" [("algebra", Text.quoted a.name), ("handle", Text.quoted "<handle>")]

end Program
end Cancelable
