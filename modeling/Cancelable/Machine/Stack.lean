import Cancelable.Scene

/-!
# Stacks

What a program in progress has still to do, as data.  A frame waits for the result of the program
above it.  A stack is a list of frames, innermost first, which also records where a program was
embedded in another; it is typed from the value it waits for to the value of the whole program.

Frames live on the heap, so deep programs, recoveries and regions cost no call stack.
-/

namespace Cancelable

/-! ## Frames -/

/-- Something that waits for a result of type `α` and makes one of type `β` of it. -/
inductive Frame (B : Backend) (P : Procedures) (a : Algebra) : Type → Type → Type 1 where
  | map {α β : Type} (f : α → Host B.World β) : Frame B P a α β
  | bind {α β : Type} (k : α → Program B P a β) : Frame B P a α β
  | recover {α : Type} (handler : Failure → Program B P a α) : Frame B P a α α
  | forceR {α β : Type} (next : Program B P a β) : Frame B P a α β
  | onCancel {α : Type} (finalizer : Program B P a Unit) : Frame B P a α α
  /-- A finalizer is running; the mask was at `level` before. -/
  | finalizing {α : Type} (level : Nat) : Frame B P a Unit α
  /-- A region is open; the mask was at `level` before. -/
  | region {α : Type} (level : Nat) : Frame B P a α α
  /-- A poll has lowered the mask from `level`. -/
  | unmasked {α : Type} (level : Nat) : Frame B P a α α

/-! ## Sites -/

/-- Where a program of the algebra `a` is being run. -/
structure Site (B : Backend) (a : Algebra) where
  handle : B.Handle a
  /-- The mask depth when it was started, to which the mask returns however it ends. -/
  entry : Nat
  /-- The algebras of the programs it is embedded in, innermost first. -/
  around : List Algebra

/-- The open programs, innermost first. -/
def Site.spans {B : Backend} {a : Algebra} (s : Site B a) : List Algebra :=
  a :: s.around

/-! ## Stacks -/

/-- What remains to be done with a result of type `α` at algebra `a` until the program ends with a
`ρ`. -/
inductive Stack (B : Backend) (P : Procedures) : Algebra → Type → Type → Type 1 where
  | nil {a : Algebra} {ρ : Type} : Stack B P a ρ ρ
  | cons {a : Algebra} {α β ρ : Type} (frame : Frame B P a α β) (rest : Stack B P a β ρ) :
      Stack B P a α ρ
  /-- The end of an embedded program; what remains is to be done at the site outside. -/
  | embedded {a b : Algebra} {α ρ : Type} (outside : Site B a) (rest : Stack B P a α ρ) :
      Stack B P b α ρ

namespace Stack

variable {B : Backend} {P : Procedures} {a : Algebra} {α ρ : Type}

/-- Give up the programs of a stack: each sets the mask back to its depth at the start of the
program, innermost first. -/
def abandon (f : Fiber) : {a : Algebra} → {α : Type} → Site B a → Stack B P a α ρ →
    Scene B → Scene B
  | _, _, site, .nil, sc => sc.setMask f site.entry
  | _, _, site, .cons _ rest, sc => rest.abandon f site sc
  | _, _, site, .embedded outside rest, sc => rest.abandon f outside (sc.setMask f site.entry)

end Stack
end Cancelable
