import Cancelable.Program
import Cancelable.Scenario.Expr

/-!
# Scripts

How scenarios write down what thunks do, programs, and effects.  These are plain data; what they
stand for is given by `Action.run`, `Code.build` and `EffectCode.build`.
-/

namespace Cancelable
namespace Scenario

/-! ## Actions -/

/-- What a thunk does each time it runs. -/
inductive Action where
  | pass
  /-- Two actions in order; the second only if the first does not fail. -/
  | seq (first second : Action)
  | value (x : Expr)
  | tick (counter : String)
  | cancel (fiber : String)
  | fiberText (fiber : String)
  | masked (fiber : String)
  | requested (fiber : String)
  | note (x : Expr)
  | snap (fiber : String)
  | error (x : Expr)
  | panic (x : Expr)
  | failNext (target op : String) (x : Expr)
  | notify (target : String) (channel payload : Expr)
  | invoke (op : String) (args : List Expr)

/-! ## Programs -/

/-- A program, written down. -/
inductive Code where
  | pure (x : Expr)
  | op (name : String) (args : List Expr)
  | delay (action : Action)
  | raw (action : Action)
  | suspend (hint : SyncHint) (action : Action)
  | raise (x : Expr)
  | canceled
  | monotonic
  | realtime
  | embed (handle : Expr) (p : Code)
  | map (p : Code) (var : String) (x : Expr)
  | mapDo (p : Code) (var : String) (action : Action)
  | bind (p : Code) (var : String) (q : Code)
  | andThen (p q : Code)
  | void (p : Code)
  | handleError (p : Code) (var : String) (q : Code)
  | attempt (p : Code)
  | forceR (p q : Code)
  | onCancel (p finalizer : Code)
  | uncancelable (var : String) (p : Code)
  | poll (token : Expr) (p : Code)
  | letIn (var : String) (x : Expr) (p : Code)
  | cond (x : Expr) (p q : Code)
  | call (name : String) (args : List Expr)
  /-- A program that was built before. -/
  | program (name : String)

/-- A definition: names for its arguments, and its body. -/
structure Definition where
  params : List String
  body : Code

/-! ## Effects -/

/-- An effect, written down. -/
inductive EffectCode where
  | kleisli (name : String)
  | compile (p : Code)
  | compileIn (fiber : String) (p : Code)
  | pure (x : Expr)
  | map (e : EffectCode) (var : String) (x : Expr)
  | andThen (e : EffectCode) (var : String) (next : EffectCode)
  | orElse (e : EffectCode) (var : String) (next : EffectCode)

/-! ## Things kept by name -/

/-- A program that was built once: building it again from here makes the same program, with the
same failures in it. -/
inductive Built where
  /-- Its algebra, how it was written, the labels its failures took, and the programs that were
  known by name then. -/
  | mk (algebra : Algebra) (code : Code) (labels : Labels) (known : List (String × Built))

/-- A program that was compiled, with the fiber it runs in. -/
structure Compiled where
  algebra : Algebra
  program : Built
  fiber : Fiber

/-- What is known by name at some moment. -/
structure Tables where
  fibers : List (String × Fiber) := []
  programs : List (String × Built) := []
  compiled : List (String × Compiled) := []

/-- The fiber of a name; a name nobody has given to another fiber stands for one of its own. -/
def Tables.fiber (t : Tables) (name : String) : Fiber :=
  (t.fibers.lookup name).getD (Fiber.ofName name)

end Scenario
end Cancelable
