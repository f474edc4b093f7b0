import Cancelable.Proofs.Flow

/-!
# Looking for a cancellation

A step looks for a cancellation before an operation, at the end of a region, and in the operations
that cancel the fiber or lower its mask.  What a look finds is reported, and nothing else is
reported as a cancellation.

Main statement: a step reports a cancellation exactly if it finds one (`State.observed_step`).
-/

namespace Cancelable

variable {B : Backend} {P : Procedures} {ρ : Type}

/-! ## Looks -/

namespace Fibers

variable {fs fs' : Fibers} {f f' : Fiber}

theorem isCanceled_congr (requested : fs.isRequested f = fs'.isRequested f')
    (depth : fs.mask f = fs'.mask f') : fs.isCanceled f = fs'.isCanceled f' := by
  simp only [isCanceled, isMasked, requested, depth]

theorem isRequested_of_isCanceled (canceled : fs.isCanceled f = true) :
    fs.isRequested f = true :=
  (Bool.and_eq_true_iff.mp canceled).1

/-- What is found canceled without a request of its own is found canceled with one. -/
theorem isCanceled_of_requested (requested : fs'.isRequested f' = true)
    (depth : fs.mask f = fs'.mask f') (canceled : fs.isCanceled f = true) :
    fs'.isCanceled f' = true := by
  rw [← canceled]
  refine (isCanceled_congr ?_ depth).symm
  rw [requested, isRequested_of_isCanceled canceled]

end Fibers

/-- The depth at which a frame looks for a cancellation when it is taken off. -/
def Frame.looksAt? {a : Algebra} {α β : Type} : Frame B P a α β → Option Nat
  | .region level => some level
  | _ => none

/-- What the looks for a cancellation find that the next step takes: one before an operation or at
the end of a region, and one that an operation takes itself. -/
def State.looks : State B P ρ → Scene B → Bool × Bool
  | ⟨f, _, _, .run p, _⟩, sc =>
    (p.isOperation && sc.fibers.isCanceled f, p.findsAgain sc.fibers f)
  | ⟨f, _, _, .give _, .cons (.region level) _⟩, sc =>
    ((sc.fibers.setMask f level).isCanceled f, false)
  | _, _ => (false, false)

theorem Program.isOperation_of_findsAgain {a : Algebra} {α : Type} {p : Program B P a α}
    {fs : Fibers} {f : Fiber} (again : p.findsAgain fs f = true) : p.isOperation = true := by
  cases p with
  | canceled => rfl
  | poll token p => rfl
  | _ => cases again

theorem Program.isOperation_of_isLeaf {a : Algebra} {α : Type} {p : Program B P a α}
    (leaf : p.isLeaf = true) : p.isOperation = true := by
  cases p with
  | pure | build | call | map | bind => cases leaf
  | _ => rfl

/-- Where a step finds nothing, no look has found anything. -/
theorem State.looks_of_finds {s : State B P ρ} {sc : Scene B} (nothing : s.finds sc = false) :
    s.looks sc = (false, false) := by
  rcases s with ⟨f, calls, site, control, stack⟩
  cases control with
  | run p =>
    have quiet : p.isOperation = true →
        sc.fibers.isCanceled f = false ∧ p.findsAgain sc.fibers f = false := by
      intro operation
      simpa [finds, operation] using nothing
    cases operation : p.isOperation with
    | true =>
      obtain ⟨clear, again⟩ := quiet operation
      simp [looks, clear, again]
    | false =>
      have again : p.findsAgain sc.fibers f = false := by
        refine Bool.eq_false_iff.mpr fun found => ?_
        rw [Program.isOperation_of_findsAgain found] at operation
        cases operation
      simp [looks, operation, again]
  | give r =>
    cases stack with
    | cons frame rest =>
      cases frame with
      | region level => exact Prod.ext nothing rfl
      | _ => rfl
    | _ => rfl
  | block turns code => rfl

namespace State

variable {s : State B P ρ} {sc sc' : Scene B}

theorem executes_eq_of_looks (looks : s.looks sc = s.looks sc') :
    s.executes sc = s.executes sc' := by
  rcases s with ⟨f, calls, site, control, stack⟩
  cases control with
  | run p =>
    cases leaf : p.isLeaf with
    | true =>
      have operation := Program.isOperation_of_isLeaf leaf
      have same : sc.fibers.isCanceled f = sc'.fibers.isCanceled f := by
        simpa [State.looks, operation] using congrArg Prod.fst looks
      simp [executes, same]
    | false => simp [executes, leaf]
  | give r => rfl
  | block turns code => rfl

/-- What a step finds it finds as well where the cancellation is requested. -/
theorem finds_of_requested (requested : sc'.fibers.isRequested s.fiber = true)
    (depth : sc.fibers.mask s.fiber = sc'.fibers.mask s.fiber) (found : s.finds sc = true) :
    s.finds sc' = true := by
  rcases s with ⟨f, calls, site, control, stack⟩
  -- after the mask has been set to a depth, it is the same in both scenes
  have after (n : Nat) (canceled : (sc.fibers.setMask f n).isCanceled f = true) :
      (sc'.fibers.setMask f n).isCanceled f = true :=
    Fibers.isCanceled_of_requested (by simpa using requested) (by simp) canceled
  cases control with
  | run p =>
    obtain ⟨operation, found⟩ := Bool.and_eq_true_iff.mp found
    rcases Bool.or_eq_true_iff.mp found with canceled | again
    · exact finds_of_canceled operation (Fibers.isCanceled_of_requested requested depth canceled)
    · refine finds_of_findsAgain operation ?_
      cases p with
      | canceled =>
        have again : (sc.fibers.cancel f).isCanceled f = true := again
        have depth : (sc.fibers.cancel f).mask f = (sc'.fibers.cancel f).mask f := depth
        refine Fibers.isCanceled_of_requested ?_ depth again
        simp [Fibers.isRequested_cancel]
      | poll token p =>
        obtain ⟨own, lowered⟩ := Bool.and_eq_true_iff.mp again
        rw [depth] at own
        exact Bool.and_eq_true_iff.mpr ⟨own, after _ lowered⟩
      | _ => cases again
  | give r =>
    cases stack with
    | cons frame rest =>
      cases frame with
      | region level => exact after level found
      | _ => cases found
    | _ => cases found
  | block turns code => cases found

/-- Where the cancellation is requested, a step that finds it carries out no operation. -/
theorem executes_of_finds (requested : sc.fibers.isRequested s.fiber = true)
    (found : s.finds sc = true) : s.executes sc = [] := by
  rcases s with ⟨f, calls, site, control, stack⟩
  cases control with
  | run p =>
    obtain ⟨operation, found⟩ := Bool.and_eq_true_iff.mp found
    rcases Bool.or_eq_true_iff.mp found with canceled | again
    · simp [executes, canceled]
    · cases p with
      | canceled =>
        -- the request is not new, so the first look has found it already
        have again : (sc.fibers.cancel f).isCanceled f = true := again
        have canceled : sc.fibers.isCanceled f = true :=
          Fibers.isCanceled_of_requested requested (Fibers.mask_cancel ..) again
        simp [executes, canceled]
      | poll token p => rfl
      | _ => cases again
  | give r => rfl
  | block turns code => rfl

/-- A step that finds a cancellation ends the program on top of the stack. -/
theorem step_of_finds (bodies : Bodies B P) (rt : Runtime) (found : s.finds sc = true) :
    ∃ s' sc', s.step bodies rt sc = .more s' sc' := by
  rcases s with ⟨f, calls, site, control, stack⟩
  cases control with
  | run p =>
    obtain ⟨operation, found⟩ := Bool.and_eq_true_iff.mp found
    cases clear : sc.fibers.isCanceled f with
    | true => exact ⟨_, _, run_of_canceled operation clear⟩
    | false =>
      rw [clear, Bool.false_or] at found
      cases p with
      | canceled =>
        have found : ({ sc with fibers := sc.fibers.cancel f } : Scene B).fibers.isCanceled f =
          true := found
        exact ⟨_, _, (observing_of_clear clear _).trans (observing_of_canceled found _)⟩
      | poll token p =>
        obtain ⟨own, lowered⟩ := Bool.and_eq_true_iff.mp found
        have own : sc.fibers.mask f = token.depth := of_decide_eq_true own
        have next := step_of_own_poll bodies rt (s := ⟨f, calls, site, .run (.poll token p), stack⟩)
          rfl own
        obtain ⟨control, sc', next, _⟩ := next
        exact ⟨_, _, next⟩
      | _ => cases found
  | give r =>
    cases stack with
    | cons frame rest =>
      cases frame with
      | region level =>
        have found : (sc.setMask f level).fibers.isCanceled f = true := found
        exact ⟨_, _, observing_of_canceled found _⟩
      | _ => cases found
    | _ => cases found
  | block turns code => cases found

end State

/-! ## What has been reported -/

/-- How many times a cancellation has been found. -/
def Scene.observed (sc : Scene B) : Nat :=
  sc.events.countP fun e =>
    match e.happening with
    | .cancellationObserved => true
    | _ => false

theorem Scene.observed_of_host {α : Type} {sc sc' : Scene B} {code : Host B.World α}
    {exit : Except Panic α} (h : sc.host code = (exit, sc')) : sc'.observed = sc.observed := by
  cases h
  rfl

/-- Giving up programs reports nothing. -/
theorem Stack.observed_abandon {a : Algebra} {α : Type} (f : Fiber) (site : Site B a)
    (stack : Stack B P a α ρ) (sc : Scene B) :
    (stack.abandon f site sc).observed = sc.observed := by
  induction stack generalizing sc with
  | nil => rfl
  | cons frame rest ih => exact ih site sc
  | embedded outside rest ih => exact ih outside (sc.setMask f site.entry)

namespace State

variable {a : Algebra} {α β : Type} {f : Fiber} {calls : Nat} {site : Site B a}
  {stack : Stack B P a α ρ} {sc : Scene B}

theorem observed_hosting {γ : Type} {code : Host B.World γ} {next : γ → Scene B → Next B P ρ}
    (h : ∀ x sc', sc'.observed = sc.observed → (next x sc').scene.observed = sc.observed) :
    (hosting f site code stack sc next).scene.observed = sc.observed := by
  refine hosting_cases (M := fun n => n.scene.observed = sc.observed) ?_ ?_
  · exact fun x sc' host => h x sc' (Scene.observed_of_host host)
  · intro panic sc' host
    calc
      (stack.abandon f site sc').observed = sc'.observed := stack.observed_abandon f site sc'
      _ = sc.observed := Scene.observed_of_host host

/-- An observation reports what it finds, in the scene that it looks at. -/
theorem observed_observing {next : Scene B → Next B P ρ} {n : Nat} {again : Bool}
    (count : sc.observed = n)
    (clear : sc.fibers.isCanceled f = false →
      (next sc).scene.observed = n + again.toNat) :
    (observing f calls site stack sc next).scene.observed =
      n + (sc.fibers.isCanceled f || again).toNat := by
  cases found : sc.fibers.isCanceled f with
  | true =>
    rw [observing_of_canceled found]
    show (sc.emit .cancellationObserved site.spans).observed = n + 1
    simp [Scene.observed, Scene.emit, ← count]
  | false =>
    rw [observing_of_clear found, Bool.false_or]
    exact clear found

/-- An observation after which nothing is looked for. -/
theorem observed_lastLook {next : Scene B → Next B P ρ} {n : Nat} (count : sc.observed = n)
    (rest : (next sc).scene.observed = n) :
    (observing f calls site stack sc next).scene.observed =
      n + (sc.fibers.isCanceled f).toNat := by
  have look : (observing f calls site stack sc next).scene.observed =
      n + (sc.fibers.isCanceled f || false).toNat := observed_observing count fun _ => rest
  simpa using look

theorem observed_run (bodies : Bodies B P) (rt : Runtime) (f : Fiber) (calls : Nat)
    (site : Site B a) (p : Program B P a α) (stack : Stack B P a α ρ) (sc : Scene B) :
    (run bodies rt f calls site p stack sc).scene.observed =
      sc.observed + (finds ⟨f, calls, site, .run p, stack⟩ sc).toNat := by
  -- a thunk reports nothing
  have thunk {γ : Type} (code : Host B.World γ) (r : γ → Except Interrupted α) :
      (hosting f site code stack sc fun x sc => yield f calls site (r x) stack sc).scene.observed =
        sc.observed :=
    observed_hosting fun x sc' reported => reported
  cases p with
  | pure x => rfl
  | build code k => exact observed_hosting fun x sc' reported => reported
  | call procedure => rfl
  | map p g => rfl
  | bind p k => rfl
  | delay code => exact observed_observing rfl fun _ => thunk code _
  | suspend hint code =>
    refine observed_observing rfl fun _ => ?_
    split
    · rfl
    · exact thunk code _
  | monotonic => exact observed_observing rfl fun _ => thunk B.monotonic _
  | realtime => exact observed_observing rfl fun _ => thunk B.realtime _
  | canceled =>
    refine observed_observing rfl fun _ => ?_
    exact observed_lastLook rfl rfl
  | poll token p =>
    refine observed_observing rfl fun _ => ?_
    simp only [Program.findsAgain]
    split
    · next own =>
      simp only [own, decide_true, Bool.true_and]
      exact observed_lastLook rfl rfl
    · next stale => simp [stale, goOn, Next.scene]
  | _ => exact observed_observing rfl fun _ => rfl

theorem observed_resume (f : Fiber) (calls : Nat) (site : Site B a) (frame : Frame B P a α β)
    (r : Except Interrupted α) (rest : Stack B P a β ρ) (sc : Scene B) :
    (resume f calls site frame r rest sc).scene.observed =
      sc.observed + (finds ⟨f, calls, site, .give r, .cons frame rest⟩ sc).toNat := by
  cases frame with
  | map g =>
    cases r with
    | ok x => exact observed_hosting fun y sc' reported => reported
    | error i => rfl
  | region level => exact observed_lastLook rfl rfl
  | bind k => cases r <;> rfl
  | unmasked level => rfl
  | _ => rcases r with (failure | _) | x <;> rfl

/-- A step reports a cancellation exactly if it finds one. -/
theorem observed_step (bodies : Bodies B P) (rt : Runtime) (s : State B P ρ) (sc : Scene B) :
    (s.step bodies rt sc).scene.observed = sc.observed + (s.finds sc).toNat := by
  obtain ⟨f, calls, site, control, stack⟩ := s
  cases control with
  | run p => exact observed_run bodies rt f calls site p stack sc
  | give r =>
    cases stack with
    | nil => rfl
    | cons frame rest => exact observed_resume f calls site frame r rest sc
    | embedded outside rest => rfl
  | block turns code =>
    cases turns with
    | zero => exact observed_hosting fun x sc' reported => reported
    | succ turns => rfl

end State
end Cancelable
