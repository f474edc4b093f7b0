import Cancelable.Machine.Step

/-!
# Turns

A program in progress is given turns.  In a turn it takes steps until it ends or has to wait for a
blocking call.  Finishing it gives it as many turns as it asks for.

A program may run for ever, so a turn takes a bound on the number of steps, and finishing takes a
bound on the number of turns.
-/

namespace Cancelable

/-- How a turn ends, for something that is to end with a `ρ` and is an `S` until then. -/
inductive Turn (S : Type 1) (ρ : Type) : Type 1 where
  | pending (rest : S)
  | ended (result : Except Interrupted ρ)
  | panicked (panic : Panic)
  | exhausted

/-- How something that was given all the turns it asked for has ended. -/
inductive Ending (ρ : Type) where
  | outcome (o : Outcome ρ)
  | panicked (panic : Panic)
  /-- Not at all: the bound is used up. -/
  | exhausted

namespace Turn

variable {B : Backend} {S : Type 1} {ρ : Type}

/-- The ending that a turn has brought, if nothing is pending. -/
def ending? : Turn S ρ → Option (Ending ρ)
  | pending _ => none
  | ended result => some (.outcome (.ofExcept result))
  | panicked p => some (.panicked p)
  | exhausted => some .exhausted

/-- Give turns to what is pending until it has ended. -/
def finish (turn : S → Scene B → Turn S ρ × Scene B) : Nat → Turn S ρ × Scene B →
    Ending ρ × Scene B
  | bound + 1, (.pending s, sc) => finish turn bound (turn s sc)
  | _, (t, sc) => (t.ending?.getD .exhausted, sc)

/-- The same turn of something that wraps what is pending. -/
def wrap {T : Type 1} (f : S → T) (t : Turn S ρ × Scene B) : Turn T ρ × Scene B :=
  match t with
  | (.pending s, sc) => (.pending (f s), sc)
  | (.ended result, sc) => (.ended result, sc)
  | (.panicked p, sc) => (.panicked p, sc)
  | (.exhausted, sc) => (.exhausted, sc)

end Turn

/-- Take steps until the program ends or waits. -/
def State.turn {B : Backend} {P : Procedures} {ρ : Type} (bodies : Bodies B P) (rt : Runtime) :
    Nat → State B P ρ → Scene B → Turn (State B P ρ) ρ × Scene B
  | 0, _, sc => (.exhausted, sc)
  | fuel + 1, s, sc =>
    match s.step bodies rt sc with
    | .more s sc => turn bodies rt fuel s sc
    | .waiting s sc => (.pending s, sc)
    | .ended result sc => (.ended result, sc)
    | .panicked p sc => (.panicked p, sc)

end Cancelable
