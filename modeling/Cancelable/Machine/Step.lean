import Cancelable.Machine.Stack

/-!
# Steps

One step of a program in progress.  The machine is either about to run a program, or about to hand
a result to the innermost frame, or in a blocking call that the runtime has not finished.  A step
never runs a program inside another: it pushes a frame and goes on with the inner program, so every
step does a bounded amount of work apart from host code.
-/

namespace Cancelable

/-! ## Runtimes -/

/-- How a runtime treats blocking calls.  It makes each wait for a number of turns, which may
depend on how many blocking calls the program has made before, and then runs it once. -/
structure Runtime where
  name : String
  /-- How many turns the call of this number waits. -/
  turns : Nat → Nat

/-- The runtime on which blocking calls run at once. -/
def Runtime.inline : Runtime := ⟨"Inline", fun _ => 0⟩

/-- The runtime on which each blocking call waits for one turn. -/
def Runtime.stepped : Runtime := ⟨"Stepped", fun _ => 1⟩

/-! ## States -/

/-- What a program in progress does next. -/
inductive Control (B : Backend) (P : Procedures) (a : Algebra) (α : Type) : Type 1 where
  | run (p : Program B P a α)
  | give (result : Except Interrupted α)
  /-- Wait for some turns, and then make a blocking call. -/
  | block (turns : Nat) (code : Host B.World (Except Failure α))

/-- A program in progress that is to end with a `ρ`. -/
structure State (B : Backend) (P : Procedures) (ρ : Type) : Type 1 where
  {a : Algebra}
  {α : Type}
  fiber : Fiber
  calls : Nat
  site : Site B a
  control : Control B P a α
  stack : Stack B P a α ρ

/-- What a step leads to. -/
inductive Next (B : Backend) (P : Procedures) (ρ : Type) : Type 1 where
  | more (state : State B P ρ) (scene : Scene B)
  /-- Leave off until the next turn. -/
  | waiting (state : State B P ρ) (scene : Scene B)
  | ended (result : Except Interrupted ρ) (scene : Scene B)
  | panicked (panic : Panic) (scene : Scene B)

namespace State

variable {B : Backend} {P : Procedures} {ρ : Type} {a : Algebra} {α β : Type}

/-- A program about to start on a handle. -/
def start (f : Fiber) (handle : B.Handle a) (p : Program B P a ρ) (fs : Fibers) : State B P ρ :=
  { fiber := f, calls := 0, site := ⟨handle, fs.mask f, []⟩, control := .run p, stack := .nil }

/-- Give up the program: the mask returns to its depth at the start, and nothing is run. -/
def abandon (s : State B P ρ) (sc : Scene B) : Scene B :=
  s.stack.abandon s.fiber s.site sc

/-! ## Parts of a step -/

section Parts

variable (f : Fiber) (calls : Nat) (site : Site B a)

/-- Go on with a program. -/
def goOn (p : Program B P a α) (stack : Stack B P a α ρ) (sc : Scene B) : Next B P ρ :=
  .more ⟨f, calls, site, .run p, stack⟩ sc

/-- Hand on a result. -/
def yield (result : Except Interrupted α) (stack : Stack B P a α ρ) (sc : Scene B) :
    Next B P ρ :=
  .more ⟨f, calls, site, .give result, stack⟩ sc

/-- Run host code, and go on with its value; if it breaks off, give up the program. -/
def hosting (code : Host B.World β) (stack : Stack B P a α ρ) (sc : Scene B)
    (next : β → Scene B → Next B P ρ) : Next B P ρ :=
  match sc.host code with
  | (.ok x, sc) => next x sc
  | (.error p, sc) => .panicked p (stack.abandon f site sc)

/-- Run host code that may fail, and hand on its result. -/
def calling (code : Host B.World (Except Failure α)) (stack : Stack B P a α ρ) (sc : Scene B) :
    Next B P ρ :=
  hosting f site code stack sc fun result sc =>
    yield f calls site (result.mapError .errored) stack sc

/-- Begin a blocking call. -/
def blocking (rt : Runtime) (code : Host B.World (Except Failure α)) (stack : Stack B P a α ρ)
    (sc : Scene B) : Next B P ρ :=
  .more ⟨f, calls + 1, site, .block (rt.turns calls) code, stack⟩ sc

/-- Look for a cancellation; go on if there is none, and end the program above `stack` if there is
one. -/
def observing (stack : Stack B P a α ρ) (sc : Scene B) (next : Scene B → Next B P ρ) :
    Next B P ρ :=
  match sc.observe f site.spans with
  | (.ok (), sc) => next sc
  | (.error i, sc) => yield f calls site (.error i) stack sc

end Parts

/-! ## Running a program -/

/-- One step of running a program.  Nodes that only say how values flow push a frame; every
operation looks for a cancellation first. -/
def run (bodies : Bodies B P) (rt : Runtime) (f : Fiber) (calls : Nat) :
    {a : Algebra} → {α : Type} → Site B a → Program B P a α → Stack B P a α ρ → Scene B →
      Next B P ρ
  | _, _, site, .pure x, stack, sc => yield f calls site (.ok x) stack sc
  | _, _, site, .build code k, stack, sc =>
    hosting f site code stack sc fun x sc => goOn f calls site (k x) stack sc
  | _, _, site, .call procedure, stack, sc => goOn f calls site (bodies procedure) stack sc
  | _, _, site, .map p g, stack, sc => goOn f calls site p (.cons (.map g) stack) sc
  | _, _, site, .bind p k, stack, sc => goOn f calls site p (.cons (.bind k) stack) sc
  | a, _, site, .op o, stack, sc =>
    observing f calls site stack sc fun sc =>
      blocking f calls site rt (B.invoke site.handle o) stack
        (sc.emit (.primitiveCall a o) site.spans)
  | _, _, site, .raw code, stack, sc =>
    observing f calls site stack sc fun sc => blocking f calls site rt (code site.handle) stack sc
  | _, _, site, .delay code, stack, sc =>
    observing f calls site stack sc fun sc =>
      hosting f site code stack sc fun x sc => yield f calls site (.ok x) stack sc
  | _, _, site, .suspend hint code, stack, sc =>
    observing f calls site stack sc fun sc =>
      if hint.isBlocking then blocking f calls site rt code stack sc
      else calling f calls site code stack sc
  | _, _, site, .raise failure, stack, sc =>
    observing f calls site stack sc fun sc =>
      yield f calls site (.error (.errored failure)) stack sc
  | _, _, site, .monotonic, stack, sc =>
    observing f calls site stack sc fun sc =>
      hosting f site B.monotonic stack sc fun x sc => yield f calls site (.ok x) stack sc
  | _, _, site, .realtime, stack, sc =>
    observing f calls site stack sc fun sc =>
      hosting f site B.realtime stack sc fun x sc => yield f calls site (.ok x) stack sc
  | _, _, site, .canceled, stack, sc =>
    observing f calls site stack sc fun sc =>
      -- the second look finds the request just made, unless a region puts it off
      observing f calls site stack { sc with fibers := sc.fibers.cancel f } fun sc =>
        yield f calls site (.ok ()) stack sc
  | _, _, site, .embed handle p, stack, sc =>
    observing f calls site stack sc fun sc =>
      goOn f calls ⟨handle, sc.fibers.mask f, site.spans⟩ p (.embedded site stack) sc
  | _, _, site, .handleError p handler, stack, sc =>
    observing f calls site stack sc fun sc =>
      goOn f calls site p (.cons (.recover handler) stack) sc
  | _, _, site, .forceR p q, stack, sc =>
    observing f calls site stack sc fun sc =>
      goOn f calls site p (.cons (.forceR q) stack) sc
  | _, _, site, .onCancel p finalizer, stack, sc =>
    observing f calls site stack sc fun sc =>
      goOn f calls site p (.cons (.onCancel finalizer) stack) sc
  | _, _, site, .uncancelable body, stack, sc =>
    observing f calls site stack sc fun sc =>
      let level := sc.fibers.mask f
      goOn f calls site (body ⟨level + 1, level.succ_pos⟩) (.cons (.region level) stack)
        (sc.setMask f (level + 1))
  | _, _, site, .poll token p, stack, sc =>
    observing f calls site stack sc fun sc =>
      let level := sc.fibers.mask f
      -- a token works where the mask is at the depth its region brought it to
      if level = token.depth then
        let stack := Stack.cons (.unmasked level) stack
        observing f calls site stack (sc.setMask f token.outer) fun sc =>
          goOn f calls site p stack sc
      else goOn f calls site p stack sc

/-! ## Giving a result -/

/-- What a frame does with the result of the program above it. -/
def resume (f : Fiber) (calls : Nat) (site : Site B a) :
    {α β : Type} → Frame B P a α β → Except Interrupted α → Stack B P a β ρ → Scene B →
      Next B P ρ
  | _, _, .map g, .ok x, rest, sc =>
    hosting f site (g x) rest sc fun y sc => yield f calls site (.ok y) rest sc
  | _, _, .map _, .error i, rest, sc => yield f calls site (.error i) rest sc
  | _, _, .bind k, .ok x, rest, sc => goOn f calls site (k x) rest sc
  | _, _, .bind _, .error i, rest, sc => yield f calls site (.error i) rest sc
  | _, _, .recover handler, .error (.errored failure), rest, sc =>
    goOn f calls site (handler failure) rest (sc.emit (.recovering a failure) site.spans)
  | _, _, .recover _, result, rest, sc => yield f calls site result rest sc
  | _, _, .forceR _, .error .canceled, rest, sc => yield f calls site (.error .canceled) rest sc
  | _, _, .forceR next, _, rest, sc => goOn f calls site next rest sc
  | _, _, .onCancel finalizer, .error .canceled, rest, sc =>
    let level := sc.fibers.mask f
    -- the finalizer is put off from cancellation, or it would end at its first operation
    goOn f calls site finalizer (.cons (.finalizing level) rest) (sc.setMask f (level + 1))
  | _, _, .onCancel _, result, rest, sc => yield f calls site result rest sc
  | _, _, .finalizing level, result, rest, sc =>
    -- whatever the finalizer came to, the program it belongs to stays canceled
    let sc := sc.setMask f level
    let sc :=
      match result with
      | .error (.errored failure) => sc.emit (.finalizerFailed failure) site.spans
      | _ => sc
    yield f calls site (.error .canceled) rest sc
  | _, _, .region level, result, rest, sc =>
    -- a request that was put off shows here, in place of the result
    observing f calls site rest (sc.setMask f level) fun sc => yield f calls site result rest sc
  | _, _, .unmasked level, result, rest, sc =>
    yield f calls site result rest (sc.setMask f level)

/-- Hand a result to the innermost frame.  At the end of a program the mask returns to its depth
at the start. -/
def give (f : Fiber) (calls : Nat) :
    {a : Algebra} → {α : Type} → Site B a → Except Interrupted α → Stack B P a α ρ → Scene B →
      Next B P ρ
  | _, _, site, result, .nil, sc => .ended result (sc.setMask f site.entry)
  | _, _, site, result, .cons frame rest, sc => resume f calls site frame result rest sc
  | _, _, site, result, .embedded outside rest, sc =>
    yield f calls outside result rest (sc.setMask f site.entry)

/-! ## The step -/

/-- One step of a program in progress. -/
def step (bodies : Bodies B P) (rt : Runtime) (s : State B P ρ) (sc : Scene B) : Next B P ρ :=
  match s.control with
  | .run p => run bodies rt s.fiber s.calls s.site p s.stack sc
  | .give result => give s.fiber s.calls s.site result s.stack sc
  | .block 0 code => calling s.fiber s.calls s.site code s.stack sc
  | .block (turns + 1) code =>
    .waiting ⟨s.fiber, s.calls, s.site, .block turns code, s.stack⟩ sc

end State
end Cancelable
