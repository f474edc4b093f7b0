import Cancelable.Machine.Run

/-!
# Effects

A compiled program is an effect: something that can be run against a handle and ends with a value
or an interruption.  Effects are combined by working on their results, so a combination of compiled
programs runs one program after another.

Each run of a compiled program takes a fork of the program's fiber.  Whoever cancels that fiber
cancels every run, and runs do not see each other's masks.
-/

namespace Cancelable

/-! ## Compiled programs -/

/-- A program compiled into an effect. -/
structure Kleisli (B : Backend) (P : Procedures) (a : Algebra) (α : Type) : Type 1 where
  program : Program B P a α
  /-- The fiber whose forks its runs take. -/
  fiber : Fiber

namespace Kleisli

variable {B : Backend} {P : Procedures} {a : Algebra} {α : Type}

def compile (p : Program B P a α) (fs : Fibers) : Kleisli B P a α × Fibers :=
  let (fiber, fs) := fs.fresh
  (⟨p, fiber⟩, fs)

def structured (k : Kleisli B P a α) (output : String) (fs : Fibers) : String :=
  Text.record "Kleisli"
    [("program", k.program.structured output), ("fiber", fs.structured k.fiber)]

end Kleisli

/-! ## Effects -/

/-- An effect over the handles of algebra `a`. -/
inductive Effect (B : Backend) (P : Procedures) (a : Algebra) : Type → Type 1 where
  | pure {α : Type} (x : α) : Effect B P a α
  | build {σ α : Type} (code : Host B.World σ) (k : σ → Effect B P a α) : Effect B P a α
  | kleisli {α : Type} (k : Kleisli B P a α) : Effect B P a α
  | compile {α : Type} (p : Program B P a α) : Effect B P a α
  | map {α β : Type} (e : Effect B P a α) (f : α → Host B.World β) : Effect B P a β
  | andThen {α β : Type} (e : Effect B P a α) (k : α → Effect B P a β) : Effect B P a β
  | orElse {α : Type} (e : Effect B P a α) (k : Interrupted → Effect B P a α) : Effect B P a α

/-- An effect in progress. -/
inductive EffectRun (B : Backend) (P : Procedures) (a : Algebra) : Type → Type 1 where
  | program {α : Type} (r : Run B P a α) : EffectRun B P a α
  | map {α β : Type} (r : EffectRun B P a α) (f : α → Host B.World β) : EffectRun B P a β
  | andThen {α β : Type} (r : EffectRun B P a α) (k : α → Effect B P a β) : EffectRun B P a β
  | orElse {α : Type} (r : EffectRun B P a α) (k : Interrupted → Effect B P a α) :
      EffectRun B P a α

/-! ## Turns of effects -/

section Turns

variable {B : Backend} {P : Procedures} {a : Algebra} {α β : Type}

/-- A turn of an effect. -/
abbrev EffectTurn (B : Backend) (P : Procedures) (a : Algebra) (α : Type) : Type 1 :=
  Turn (EffectRun B P a α) α × Scene B

namespace EffectTurn

/-- Go on from a turn: wrap what is pending, and treat what has ended. -/
def andThen (t : EffectTurn B P a α) (wrap : EffectRun B P a α → EffectRun B P a β)
    (next : Except Interrupted α → Scene B → EffectTurn B P a β) : EffectTurn B P a β :=
  match t with
  | (.pending r, sc) => (.pending (wrap r), sc)
  | (.ended result, sc) => next result sc
  | (.panicked p, sc) => (.panicked p, sc)
  | (.exhausted, sc) => (.exhausted, sc)

def mapped (f : α → Host B.World β) : Except Interrupted α → Scene B → EffectTurn B P a β
  | .error i, sc => (.ended (.error i), sc)
  | .ok x, sc =>
    match sc.host (f x) with
    | (.ok y, sc) => (.ended (.ok y), sc)
    | (.error p, sc) => (.panicked p, sc)

def launch (m : Machine B P) (f : Fiber) (handle : B.Handle a) (p : Program B P a α)
    (sc : Scene B) : EffectTurn B P a α :=
  Turn.wrap .program ((Run.start f handle p sc.fibers).turn m sc)

end EffectTurn

variable (m : Machine B P)

/-- The first turn of an effect.  A compiled program forks its fiber here. -/
def Effect.start (handle : B.Handle a) : {α : Type} → Effect B P a α → Scene B →
    EffectTurn B P a α
  | _, .pure x, sc => (.ended (.ok x), sc)
  | _, .build code k, sc =>
    match sc.host code with
    | (.ok x, sc) => (k x).start handle sc
    | (.error p, sc) => (.panicked p, sc)
  | _, .kleisli k, sc =>
    let (f, fibers) := sc.fibers.fork k.fiber
    .launch m f handle k.program { sc with fibers }
  | _, .compile p, sc =>
    let (f, fibers) := sc.fibers.fresh
    .launch m f handle p { sc with fibers }
  | _, .map e f, sc => (e.start handle sc).andThen (.map · f) (.mapped f)
  | _, .andThen e k, sc =>
    (e.start handle sc).andThen (.andThen · k) fun
      | .ok x, sc => (k x).start handle sc
      | .error why, sc => (.ended (.error why), sc)
  | _, .orElse e k, sc =>
    (e.start handle sc).andThen (.orElse · k) fun
      | .ok x, sc => (.ended (.ok x), sc)
      | .error why, sc => (k why).start handle sc

def EffectRun.turn (handle : B.Handle a) : {α : Type} → EffectRun B P a α → Scene B →
    EffectTurn B P a α
  | _, .program r, sc => Turn.wrap .program (r.turn m sc)
  | _, .map r f, sc => (r.turn handle sc).andThen (.map · f) (.mapped f)
  | _, .andThen r k, sc =>
    (r.turn handle sc).andThen (.andThen · k) fun
      | .ok x, sc => (k x).start m handle sc
      | .error why, sc => (.ended (.error why), sc)
  | _, .orElse r k, sc =>
    (r.turn handle sc).andThen (.orElse · k) fun
      | .ok x, sc => (.ended (.ok x), sc)
      | .error why, sc => (k why).start m handle sc

/-- Give up an effect in progress, and with it the program that is running. -/
def EffectRun.abandon : {α : Type} → EffectRun B P a α → Scene B → Scene B
  | _, .program r, sc => r.abandon sc
  | _, .map r _, sc => r.abandon sc
  | _, .andThen r _, sc => r.abandon sc
  | _, .orElse r _, sc => r.abandon sc

def Effect.run (handle : B.Handle a) (e : Effect B P a α) (sc : Scene B) : Ending α × Scene B :=
  Turn.finish (EffectRun.turn m handle) m.bound (e.start m handle sc)

end Turns

/-! ## Structured texts -/

/-- The ways to make an effect of others. -/
inductive EffectForm where
  | map
  | andThen
  | orElse
  | boxed
  deriving DecidableEq, Repr

def EffectForm.structured : EffectForm → String
  | map => hidden "Map"
  | andThen => hidden "AndThen"
  | orElse => hidden "OrElse"
  | boxed => Text.record "BoxedEffect" [("run_fn", Text.quoted "<function>")]
where
  /-- A name whose parts are not shown. -/
  hidden (name : String) : String := name ++ " \x7b .. \x7d"

end Cancelable
