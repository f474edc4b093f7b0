import Cancelable.Proofs.Progress

/-!
# How results flow

A step hands a result from one frame to the next, goes on with a program, or puts a frame on.  On
the way it may look for a cancellation, and if it finds one it ends the program on top of the stack.
This module says where a step looks, and what it makes of a cancellation, whether it has found it or
was handed it.

A run may keep a log, to which each of its steps adds what it is worth.  Nothing is assumed here of
what others do to the scene between two steps.

Main statements: every step before the last is one of a few flows (`State.step_flows`), and what
every step keeps holds of the log and the state at every point of a run (`State.Logs.invariant`).
-/

namespace Cancelable

universe u

variable {B : Backend} {P : Procedures} {ρ : Type}

/-! ## Cancellations -/

/-- Whether a result is a cancellation. -/
def isCancellation {α : Type} : Except Interrupted α → Bool
  | .error .canceled => true
  | _ => false

theorem eq_of_isCancellation {α : Type} {r : Except Interrupted α}
    (canceled : isCancellation r = true) : r = .error .canceled := by
  rcases r with (failure | _) | x
  · exact absurd canceled Bool.false_ne_true
  · rfl
  · exact absurd canceled Bool.false_ne_true

/-- Whether a program is about to end canceled. -/
def Control.isCanceled {a : Algebra} {α : Type} : Control B P a α → Bool
  | .give r => isCancellation r
  | _ => false

/-- Whether a program has come to a result. -/
def Control.isResult {a : Algebra} {α : Type} : Control B P a α → Bool
  | .give _ => true
  | _ => false

theorem Control.isCanceled_of_busy {a : Algebra} {α : Type} {c : Control B P a α}
    (busy : c.isResult = false) : c.isCanceled = false := by
  cases c with
  | give r => cases busy
  | _ => rfl

/-- The finalizer that the next step sets up, if it enters a program that has one. -/
def Control.finalizer? {a : Algebra} {α : Type} : Control B P a α → Option (Program B P a Unit)
  | .run (.onCancel _ finalizer) => some finalizer
  | _ => none

/-- Whether a frame has a finalizer to run, or waits for one to end. -/
def Frame.cleansUp {a : Algebra} {α β : Type} : Frame B P a α β → Bool
  | .onCancel _ | .finalizing _ => true
  | _ => false

/-! ## Where a step looks for a cancellation -/

/-- Whether an operation that was not refused finds a cancellation itself: the request that it has
just made, or one that shows where it has lowered the mask. -/
def Program.findsAgain {a : Algebra} {α : Type} (fs : Fibers) (f : Fiber) :
    Program B P a α → Bool
  | .canceled => (fs.cancel f).isCanceled f
  | .poll token _ => fs.mask f = token.depth && (fs.setMask f token.outer).isCanceled f
  | _ => false

namespace State

/-- Whether an observation made in the next step finds the request set at the mask depth zero.  A
step looks before every operation, in the operations that cancel the fiber or lower its mask, and at
the end of a region. -/
def finds : State B P ρ → Scene B → Bool
  | ⟨f, _, _, .run p, _⟩, sc =>
    p.isOperation && (sc.fibers.isCanceled f || p.findsAgain sc.fibers f)
  | ⟨f, _, _, .give _, .cons (.region level) _⟩, sc => (sc.fibers.setMask f level).isCanceled f
  | _, _ => false

section Finds

variable {a : Algebra} {α : Type} {f : Fiber} {calls : Nat} {site : Site B a}
  {stack : Stack B P a α ρ} {sc : Scene B} {p : Program B P a α}

theorem finds_of_canceled (operation : p.isOperation = true)
    (canceled : sc.fibers.isCanceled f = true) :
    (⟨f, calls, site, .run p, stack⟩ : State B P ρ).finds sc = true := by
  simp [finds, operation, canceled]

theorem finds_of_findsAgain (operation : p.isOperation = true)
    (again : p.findsAgain sc.fibers f = true) :
    (⟨f, calls, site, .run p, stack⟩ : State B P ρ).finds sc = true := by
  simp [finds, operation, again]

theorem finds_of_clear (clear : sc.fibers.isCanceled f = false)
    (again : p.findsAgain sc.fibers f = false) :
    (⟨f, calls, site, .run p, stack⟩ : State B P ρ).finds sc = false := by
  simp [finds, clear, again]

end Finds

end State

/-! ## Flows -/

/-- What a step can do with a result or a program: `Flows s found s'` says that it leads from `s` to
`s'`, and whether it has found a cancellation. -/
inductive Flows : State B P ρ → Bool → State B P ρ → Prop where
  -- the program on top of the stack goes on, or ends with a result other than a cancellation
  | stay {a : Algebra} {α : Type} {f : Fiber} {calls calls' : Nat} {site : Site B a}
      {c c' : Control B P a α} {stack : Stack B P a α ρ} (busy : c.isResult = false)
      (plain : c.finalizer? = none) (other : c'.isCanceled = false) :
      Flows ⟨f, calls, site, c, stack⟩ false ⟨f, calls', site, c', stack⟩
  -- a cancellation is found, before an operation, under a lowered mask, or at the end of a region
  | refused {a : Algebra} {α : Type} {f : Fiber} {calls : Nat} {site : Site B a}
      {p : Program B P a α} {stack : Stack B P a α ρ} :
      Flows ⟨f, calls, site, .run p, stack⟩ true ⟨f, calls, site, .give (.error .canceled), stack⟩
  | refused_below {a : Algebra} {α : Type} {f : Fiber} {calls level : Nat} {site : Site B a}
      {p : Program B P a α} {stack : Stack B P a α ρ} :
      Flows ⟨f, calls, site, .run p, stack⟩ true
        ⟨f, calls, site, .give (.error .canceled), .cons (.unmasked level) stack⟩
  | refused_outside {a : Algebra} {α : Type} {f : Fiber} {calls level : Nat} {site : Site B a}
      {r : Except Interrupted α} {rest : Stack B P a α ρ} :
      Flows ⟨f, calls, site, .give r, .cons (.region level) rest⟩ true
        ⟨f, calls, site, .give (.error .canceled), rest⟩
  -- a frame is put on, hands a result on, or goes on from it
  | push {a : Algebra} {α β : Type} {f : Fiber} {calls : Nat} {site : Site B a}
      {p : Program B P a β} {q : Program B P a α} {stack : Stack B P a β ρ}
      (frame : Frame B P a α β) (plain : frame.cleansUp = false)
      (noFinalizer : (Control.run p).finalizer? = none) :
      Flows ⟨f, calls, site, .run p, stack⟩ false ⟨f, calls, site, .run q, .cons frame stack⟩
  | pass {a : Algebra} {α β : Type} {f : Fiber} {calls : Nat} {site : Site B a}
      {r : Except Interrupted α} {r' : Except Interrupted β} {rest : Stack B P a β ρ}
      (frame : Frame B P a α β) (plain : frame.cleansUp = false)
      (same : isCancellation r' = isCancellation r) :
      Flows ⟨f, calls, site, .give r, .cons frame rest⟩ false ⟨f, calls, site, .give r', rest⟩
  | goOn {a : Algebra} {α β : Type} {f : Fiber} {calls : Nat} {site : Site B a}
      {r : Except Interrupted α} {q : Program B P a β} {rest : Stack B P a β ρ}
      (frame : Frame B P a α β) (plain : frame.cleansUp = false)
      (other : isCancellation r = false) :
      Flows ⟨f, calls, site, .give r, .cons frame rest⟩ false ⟨f, calls, site, .run q, rest⟩
  -- a finalizer is set up, is left out, runs after a cancellation, and leaves one behind
  | guard {a : Algebra} {α : Type} {f : Fiber} {calls : Nat} {site : Site B a}
      {p : Program B P a α} {finalizer : Program B P a Unit} {stack : Stack B P a α ρ} :
      Flows ⟨f, calls, site, .run (.onCancel p finalizer), stack⟩ false
        ⟨f, calls, site, .run p, .cons (.onCancel finalizer) stack⟩
  | leave {a : Algebra} {α : Type} {f : Fiber} {calls : Nat} {site : Site B a}
      {r : Except Interrupted α} {finalizer : Program B P a Unit} {rest : Stack B P a α ρ}
      (other : isCancellation r = false) :
      Flows ⟨f, calls, site, .give r, .cons (.onCancel finalizer) rest⟩ false
        ⟨f, calls, site, .give r, rest⟩
  | finalize {a : Algebra} {α : Type} {f : Fiber} {calls level : Nat} {site : Site B a}
      {finalizer : Program B P a Unit} {rest : Stack B P a α ρ} :
      Flows ⟨f, calls, site, .give (.error .canceled), .cons (.onCancel finalizer) rest⟩ false
        ⟨f, calls, site, .run finalizer, .cons (.finalizing level) rest⟩
  | finish {a : Algebra} {α : Type} {f : Fiber} {calls level : Nat} {site : Site B a}
      {r : Except Interrupted Unit} {rest : Stack B P a α ρ} :
      Flows ⟨f, calls, site, .give r, .cons (.finalizing level) rest⟩ false
        ⟨f, calls, site, .give (.error .canceled), rest⟩
  -- an embedded program begins and ends
  | embed {a b : Algebra} {α : Type} {f : Fiber} {calls : Nat} {outside : Site B a}
      {inside : Site B b} {q : Program B P a α} {p : Program B P b α} {stack : Stack B P a α ρ}
      (noFinalizer : (Control.run q).finalizer? = none) :
      Flows ⟨f, calls, outside, .run q, stack⟩ false
        ⟨f, calls, inside, .run p, .embedded outside stack⟩
  | unembed {a b : Algebra} {α : Type} {f : Fiber} {calls : Nat} {outside : Site B a}
      {inside : Site B b} {r : Except Interrupted α} {rest : Stack B P a α ρ} :
      Flows ⟨f, calls, inside, .give r, .embedded outside rest⟩ false
        ⟨f, calls, outside, .give r, rest⟩

theorem Flows.to {s s' : State B P ρ} {found found' : Bool} (flow : Flows s found s')
    (h : found' = found) : Flows s found' s' := by
  rw [h]
  exact flow

namespace State

variable {a : Algebra} {α β : Type}

/-- The end of a call is a value or a failure. -/
theorem isCancellation_mapError (result : Except Failure α) :
    isCancellation (result.mapError .errored) = false := by
  cases result <;> rfl

theorem run_flows (bodies : Bodies B P) (rt : Runtime) (f : Fiber) (calls : Nat) (site : Site B a)
    (p : Program B P a α) (stack : Stack B P a α ρ) (sc : Scene B) :
    (run bodies rt f calls site p stack sc).GoesOn fun s' _ =>
      Flows ⟨f, calls, site, .run p, stack⟩ (finds ⟨f, calls, site, .run p, stack⟩ sc) s' := by
  -- an operation is refused, or the look before it has found nothing
  have looking {next : Scene B → Next B P ρ} (operation : p.isOperation = true)
      (clear : sc.fibers.isCanceled f = false →
        (next sc).GoesOn fun s' _ =>
          Flows ⟨f, calls, site, .run p, stack⟩ (finds ⟨f, calls, site, .run p, stack⟩ sc) s') :
      (observing f calls site stack sc next).GoesOn fun s' _ =>
        Flows ⟨f, calls, site, .run p, stack⟩ (finds ⟨f, calls, site, .run p, stack⟩ sc) s' :=
    goesOn_observing (fun canceled => Flows.refused.to (finds_of_canceled operation canceled)) clear
  have stays {calls' : Nat} {c' : Control B P a α}
      (quiet : finds ⟨f, calls, site, .run p, stack⟩ sc = false)
      (plain : (Control.run p).finalizer? = none) (other : c'.isCanceled = false) :
      Flows ⟨f, calls, site, .run p, stack⟩ (finds ⟨f, calls, site, .run p, stack⟩ sc)
        ⟨f, calls', site, c', stack⟩ :=
    (Flows.stay rfl plain other).to quiet
  have pushes {γ : Type} {q : Program B P a γ} (frame : Frame B P a γ α)
      (quiet : finds ⟨f, calls, site, .run p, stack⟩ sc = false)
      (plain : frame.cleansUp = false) (noFinalizer : (Control.run p).finalizer? = none) :
      Flows ⟨f, calls, site, .run p, stack⟩ (finds ⟨f, calls, site, .run p, stack⟩ sc)
        ⟨f, calls, site, .run q, .cons frame stack⟩ :=
    (Flows.push frame plain noFinalizer).to quiet
  cases p with
  | pure x => exact stays rfl rfl rfl
  | build code k => exact goesOn_hosting fun x sc' _ => stays rfl rfl rfl
  | call procedure => exact stays rfl rfl rfl
  | map p g => exact pushes (.map g) rfl rfl rfl
  | bind p k => exact pushes (.bind k) rfl rfl rfl
  | op o => exact looking rfl fun clear => stays (finds_of_clear clear rfl) rfl rfl
  | raw code => exact looking rfl fun clear => stays (finds_of_clear clear rfl) rfl rfl
  | delay code =>
    refine looking rfl fun clear => ?_
    exact goesOn_hosting fun x sc' _ => stays (finds_of_clear clear rfl) rfl rfl
  | suspend hint code =>
    refine looking rfl fun clear => ?_
    split
    · exact stays (finds_of_clear clear rfl) rfl rfl
    · exact goesOn_calling fun result sc' _ =>
        stays (finds_of_clear clear rfl) rfl (isCancellation_mapError result)
  | raise failure => exact looking rfl fun clear => stays (finds_of_clear clear rfl) rfl rfl
  | monotonic =>
    refine looking rfl fun clear => ?_
    exact goesOn_hosting fun x sc' _ => stays (finds_of_clear clear rfl) rfl rfl
  | realtime =>
    refine looking rfl fun clear => ?_
    exact goesOn_hosting fun x sc' _ => stays (finds_of_clear clear rfl) rfl rfl
  | canceled =>
    -- the second look finds the request just made, if nothing puts it off
    refine looking rfl fun clear => ?_
    refine goesOn_observing (fun found => ?_) fun putOff => ?_
    · exact Flows.refused.to (finds_of_findsAgain rfl found)
    · exact stays (finds_of_clear clear putOff) rfl rfl
  | embed handle p =>
    exact looking rfl fun clear => (Flows.embed rfl).to (finds_of_clear clear rfl)
  | handleError p handler =>
    exact looking rfl fun clear => pushes (.recover handler) (finds_of_clear clear rfl) rfl rfl
  | forceR p q =>
    exact looking rfl fun clear => pushes (.forceR q) (finds_of_clear clear rfl) rfl rfl
  | onCancel p finalizer =>
    exact looking rfl fun clear => Flows.guard.to (finds_of_clear clear rfl)
  | uncancelable body =>
    exact looking rfl fun clear => pushes (.region _) (finds_of_clear clear rfl) rfl rfl
  | poll token p =>
    refine looking rfl fun clear => ?_
    simp only
    split
    · next own =>
      refine goesOn_observing (fun found => ?_) fun putOff => ?_
      · have found : (sc.fibers.setMask f token.outer).isCanceled f = true := found
        refine Flows.refused_below.to (finds_of_findsAgain rfl ?_)
        simp [Program.findsAgain, own, found]
      · have putOff : (sc.fibers.setMask f token.outer).isCanceled f = false := putOff
        refine pushes (.unmasked _) (finds_of_clear clear ?_) rfl rfl
        simp [Program.findsAgain, putOff]
    · next stale =>
      refine stays (finds_of_clear clear ?_) rfl rfl
      simp [Program.findsAgain, stale]

theorem resume_flows (f : Fiber) (calls : Nat) (site : Site B a) (frame : Frame B P a α β)
    (r : Except Interrupted α) (rest : Stack B P a β ρ) (sc : Scene B) :
    (resume f calls site frame r rest sc).GoesOn fun s' _ =>
      Flows ⟨f, calls, site, .give r, .cons frame rest⟩
        (finds ⟨f, calls, site, .give r, .cons frame rest⟩ sc) s' := by
  cases frame with
  | map g =>
    cases r with
    | ok x => exact goesOn_hosting fun y sc' _ => .pass (.map g) rfl rfl
    | error i => exact .pass (.map g) rfl (by cases i <;> rfl)
  | bind k =>
    cases r with
    | ok x => exact .goOn (.bind k) rfl rfl
    | error i => exact .pass (.bind k) rfl (by cases i <;> rfl)
  | recover handler =>
    rcases r with (failure | _) | x
    · exact .goOn (.recover handler) rfl rfl
    · exact .pass (.recover handler) rfl rfl
    · exact .pass (.recover handler) rfl rfl
  | forceR next =>
    rcases r with (failure | _) | x
    · exact .goOn (.forceR next) rfl rfl
    · exact .pass (.forceR next) rfl rfl
    · exact .goOn (.forceR next) rfl rfl
  | onCancel finalizer =>
    rcases r with (failure | _) | x
    · exact .leave rfl
    · exact .finalize
    · exact .leave rfl
  | finalizing level => rcases r with (failure | _) | x <;> exact .finish
  | region level =>
    refine goesOn_observing (fun found => ?_) fun clear => ?_
    · exact Flows.refused_outside.to found
    · exact (Flows.pass (.region level) rfl rfl).to clear
  | unmasked level => exact .pass (.unmasked level) rfl rfl

/-- A step is a flow, unless the program has a result and nothing remains to be done. -/
theorem step_flows (bodies : Bodies B P) (rt : Runtime) (s : State B P ρ) (sc : Scene B) :
    ((s.step bodies rt sc).GoesOn fun s' _ => Flows s (s.finds sc) s') ∨
    ∃ (a : Algebra) (f : Fiber) (calls : Nat) (site : Site B a) (r : Except Interrupted ρ),
      s = ⟨f, calls, site, .give r, .nil⟩ := by
  rcases s with ⟨f, calls, site, control, stack⟩
  cases control with
  | run p => exact .inl (run_flows bodies rt f calls site p stack sc)
  | give r =>
    cases stack with
    | nil => exact .inr ⟨_, f, calls, site, r, rfl⟩
    | cons frame rest => exact .inl (resume_flows f calls site frame r rest sc)
    | embedded outside rest => exact .inl .unembed
  | block turns code =>
    cases turns with
    | zero =>
      exact .inl (goesOn_calling fun result sc' _ =>
        .stay rfl rfl (isCancellation_mapError result))
    | succ turns => exact .inl (.stay rfl rfl rfl)

/-- A step after which the program goes on is a flow. -/
theorem flows_of_goesTo {bodies : Bodies B P} {rt : Runtime} {s s' : State B P ρ}
    {sc sc' : Scene B} (h : (s.step bodies rt sc).GoesTo s' sc') : Flows s (s.finds sc) s' := by
  rcases step_flows bodies rt s sc with flows | ⟨a, f, calls, site, r, rfl⟩
  · exact flows.at h
  · rcases h with h | h <;> cases h

/-! ## Runs with a log -/

/-- A run from one point to a later one, with a log to which each step adds a note on where it has
led from and to.  Between two steps others may change the scene as they like. -/
inductive Logs {L : Type u} (bodies : Bodies B P) (rt : Runtime)
    (note : State B P ρ → Scene B → State B P ρ → List L) (s₀ : State B P ρ) (sc₀ : Scene B) :
    List L → State B P ρ → Scene B → Prop where
  | begun : Logs bodies rt note s₀ sc₀ [] s₀ sc₀
  | step {log : List L} {s s' : State B P ρ} {sc sc' : Scene B}
      (before : Logs @bodies rt note s₀ sc₀ log s sc) (h : (s.step bodies rt sc).GoesTo s' sc') :
      Logs bodies rt note s₀ sc₀ (log ++ note s sc s') s' sc'
  | others {log : List L} {s : State B P ρ} {sc sc' : Scene B}
      (before : Logs @bodies rt note s₀ sc₀ log s sc) : Logs bodies rt note s₀ sc₀ log s sc'

variable {L : Type u} {bodies : Bodies B P} {rt : Runtime}
  {note : State B P ρ → Scene B → State B P ρ → List L} {s₀ s : State B P ρ} {sc₀ sc : Scene B}
  {log : List L}

/-- What holds at the start and is kept by every step holds of the log and the state at every
point. -/
theorem Logs.invariant {I : List L → State B P ρ → Prop} (h : Logs bodies rt note s₀ sc₀ log s sc)
    (start : I [] s₀)
    (keep : ∀ {log : List L} {t t' : State B P ρ} {sc sc' : Scene B},
      (t.step bodies rt sc).GoesTo t' sc' → I log t → I (log ++ note t sc t') t') : I log s := by
  induction h with
  | begun => exact start
  | step before next ih => exact keep next ih
  | others _ ih => exact ih

/-- The log of the steps that are taken one after another, at most a number of them. -/
def logAfter (bodies : Bodies B P) (rt : Runtime)
    (note : State B P ρ → Scene B → State B P ρ → List L) :
    Nat → State B P ρ → Scene B → List L
  | 0, _, _ => []
  | n + 1, s, sc =>
    match s.step bodies rt sc with
    | .more s' sc' => note s sc s' ++ logAfter bodies rt note n s' sc'
    | .waiting s' sc' => note s sc s' ++ logAfter bodies rt note n s' sc'
    | _ => []

/-- Steps that are taken one after another carry a run on. -/
theorem Logs.after (h : Logs bodies rt note s₀ sc₀ log s sc) (n : Nat) :
    Logs bodies rt note s₀ sc₀ (log ++ s.logAfter bodies rt note n sc) (s.after bodies rt n sc).1
      (s.after bodies rt n sc).2 := by
  induction n generalizing log s sc with
  | zero => simpa [logAfter, State.after] using h
  | succ n ih =>
    cases e : s.step bodies rt sc with
    | more s' sc' => simpa [logAfter, State.after, e] using ih (h.step (.inl e))
    | waiting s' sc' => simpa [logAfter, State.after, e] using ih (h.step (.inr e))
    | ended r sc' => simpa [logAfter, State.after, e] using h
    | panicked panic sc' => simpa [logAfter, State.after, e] using h

end State
end Cancelable
