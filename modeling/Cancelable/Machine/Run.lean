import Cancelable.Machine.Turn

/-!
# Runs

A machine runs programs against handles.  It knows the bodies of procedures and the runtime that
makes blocking calls, and it serves all algebras alike.  A program that is run by itself reports its
end once it is over; one that is embedded in another does not.
-/

namespace Cancelable

/-! ## Machines -/

/-- What runs programs. -/
structure Machine (B : Backend) (P : Procedures) : Type 1 where
  bodies : Bodies B P
  runtime : Runtime
  /-- How many steps a turn may take, and how many turns a run. -/
  bound : Nat

namespace Machine

variable {B : Backend} {P : Procedures}

def structuredFor (m : Machine B P) (a : Algebra) : String :=
  Text.record "Interpreter" [("algebra", Text.quoted a.name), ("runtime", m.runtime.name)]

def structured (m : Machine B P) : String :=
  Text.record "Interpreters" [("runtime", m.runtime.name)]

end Machine

/-! ## Runs -/

/-- A program of the algebra `a` in progress, which was started by itself. -/
structure Run (B : Backend) (P : Procedures) (a : Algebra) (ρ : Type) : Type 1 where
  state : State B P ρ

namespace Run

variable {B : Backend} {P : Procedures} {a : Algebra} {ρ : Type}

/-- A program about to start on a handle, in a fiber. -/
def start (f : Fiber) (handle : B.Handle a) (p : Program B P a ρ) (fs : Fibers) : Run B P a ρ :=
  ⟨.start f handle p fs⟩

/-- Give the program a turn.  Its end is reported outside of all programs. -/
def turn (m : Machine B P) (r : Run B P a ρ) (sc : Scene B) : Turn (Run B P a ρ) ρ × Scene B :=
  match r.state.turn m.bodies m.runtime m.bound sc with
  | (.ended result, sc) => (.ended result, sc.emit (.ended a (result.map fun _ => ())) [])
  | t => Turn.wrap Run.mk t

/-- Give up the program. -/
def abandon (r : Run B P a ρ) (sc : Scene B) : Scene B :=
  r.state.abandon sc

end Run

/-- Run a program to its end on a handle, in a fiber. -/
def Machine.run {B : Backend} {P : Procedures} {a : Algebra} {ρ : Type}
    (m : Machine B P) (f : Fiber) (handle : B.Handle a) (p : Program B P a ρ)
    (sc : Scene B) : Ending ρ × Scene B :=
  Turn.finish (Run.turn m) m.bound ((Run.start f handle p sc.fibers).turn m sc)

end Cancelable
