import Cancelable.Proofs.Ends

/-!
# Programs are carried out as they mean

A program that is put on a stack is carried out as it means, and then the stack goes on from its
end.  The proof is by induction on the derivation of the meaning, for all stacks at once: each rule
becomes the step that puts a frame on, the runs of the parts, and the step that takes the frame off.

Main statement: what the stack makes of the end that a program means to have, the machine makes of
the program (`Means.concludes`).
-/

namespace Cancelable

variable {B : Backend} {P : Procedures} {ρ : Type}

namespace State

/-! ## Conclusions -/

section Concludes

variable (bodies : Bodies B P) (rt : Runtime) {a : Algebra} {α : Type} (f : Fiber)

/-- The machine ends so from here, however many blocking calls it has begun. -/
def Concludes (site : Site B a) (control : Control B P a α) (stack : Stack B P a α ρ)
    (sc : Scene B) (ops : List (Executed B P)) (e : Exit ρ) (sc' : Scene B) : Prop :=
  ∀ calls, ∃ n, (⟨f, calls, site, control, stack⟩ : State B P ρ).Ends bodies rt n sc ops e sc'

/-- The machine ends so after the program above the stack has ended with `e₁`. -/
def Settles (site : Site B a) (stack : Stack B P a α ρ) (e₁ : Exit α) (sc : Scene B)
    (ops : List (Executed B P)) (e : Exit ρ) (sc' : Scene B) : Prop :=
  match e₁ with
  | .gives r => Concludes @bodies rt f site (.give r) stack sc ops e sc'
  | .breaks panic => ops = [] ∧ e = .breaks panic ∧ sc' = stack.abandon f site sc

end Concludes

variable {bodies : Bodies B P} {rt : Runtime} {a b : Algebra} {α β γ : Type} {f : Fiber}
  {site : Site B a} {site' : Site B b} {control : Control B P a α} {control' : Control B P b β}
  {stack : Stack B P a α ρ} {stack' : Stack B P b β ρ} {sc sc₁ sc' : Scene B}
  {ops : List (Executed B P)} {e : Exit ρ}

/-! ## Before a step -/

/-- Before a step that goes on the machine ends as after it. -/
theorem Concludes.before (ops₀ : List (Executed B P))
    (carried : ∀ calls, (⟨f, calls, site, control, stack⟩ : State B P ρ).executes sc = ops₀)
    (next : ∀ calls, ∃ calls',
      (⟨f, calls, site, control, stack⟩ : State B P ρ).step bodies rt sc =
        .more ⟨f, calls', site', control', stack'⟩ sc₁)
    (after : Concludes bodies rt f site' control' stack' sc₁ ops e sc') :
    Concludes bodies rt f site control stack sc (ops₀ ++ ops) e sc' := by
  intro calls
  rcases next calls with ⟨calls', step⟩
  rcases after calls' with ⟨n, ends⟩
  refine ⟨n + 1, ops, by rw [carried], ?_⟩
  rw [step]
  exact ends

theorem Concludes.before_run {p : Program B P a α} (ops₀ : List (Executed B P))
    (carried : ∀ calls, (⟨f, calls, site, .run p, stack⟩ : State B P ρ).executes sc = ops₀)
    (next : ∀ calls, ∃ calls', run bodies rt f calls site p stack sc =
      .more ⟨f, calls', site', control', stack'⟩ sc₁)
    (after : Concludes bodies rt f site' control' stack' sc₁ ops e sc') :
    Concludes bodies rt f site (.run p) stack sc (ops₀ ++ ops) e sc' :=
  Concludes.before ops₀ carried next after

/-- The same for a step that carries out no operation. -/
theorem Concludes.before_quiet {p : Program B P a α}
    (quiet : ∀ calls, (⟨f, calls, site, .run p, stack⟩ : State B P ρ).executes sc = [])
    (next : ∀ calls, run bodies rt f calls site p stack sc =
      .more ⟨f, calls, site', control', stack'⟩ sc₁)
    (after : Concludes bodies rt f site' control' stack' sc₁ ops e sc') :
    Concludes bodies rt f site (.run p) stack sc ops e sc' :=
  Concludes.before_run [] quiet (fun calls => ⟨calls, next calls⟩) after

theorem Concludes.before_give {r : Except Interrupted α}
    (next : ∀ calls, give f calls site r stack sc = .more ⟨f, calls, site', control', stack'⟩ sc₁)
    (after : Concludes bodies rt f site' control' stack' sc₁ ops e sc') :
    Concludes bodies rt f site (.give r) stack sc ops e sc' :=
  Concludes.before [] (fun _ => rfl) (fun calls => ⟨calls, next calls⟩) after

/-- A frame that passes an end on leaves it to the frames below. -/
theorem Settles.cons {frame : Frame B P a α β} {rest : Stack B P a β ρ} {e₁ : Exit α}
    {e₂ : Exit β} (passes : frame.passes e₁ = some e₂)
    (after : Settles bodies rt f site rest e₂ sc ops e sc') :
    Settles bodies rt f site (.cons frame rest) e₁ sc ops e sc' := by
  cases e₁ with
  | breaks panic =>
    -- the guards of the stack do not see the frame
    rw [Frame.eq_of_passes_breaks passes] at after
    exact after
  | gives r =>
    rcases Frame.resume_of_passes passes rest with ⟨r', rfl, next⟩
    exact Concludes.before_give (fun calls => next f calls site sc) after

/-! ## Before host code -/

/-- Before host code the machine ends as the code and what follows it say. -/
theorem Concludes.before_host {rest : Stack B P a β ρ} {code : Host B.World γ}
    {c : γ → Control B P a β} {exit : Except Panic γ} (host : sc.host code = (exit, sc₁))
    (value : ∀ x, exit = .ok x → Concludes bodies rt f site (c x) rest sc₁ ops e sc')
    (panic : ∀ p, exit = .error p → ops = [] ∧ e = .breaks p ∧ sc' = rest.abandon f site sc₁)
    (ops₀ : List (Executed B P))
    (carried : ∀ calls, (⟨f, calls, site, control, stack⟩ : State B P ρ).executes sc = ops₀)
    (next : ∀ calls, (⟨f, calls, site, control, stack⟩ : State B P ρ).step bodies rt sc =
      hosting f site code rest sc fun x sc => .more ⟨f, calls, site, c x, rest⟩ sc) :
    Concludes bodies rt f site control stack sc (ops₀ ++ ops) e sc' := by
  intro calls
  cases exit with
  | ok x =>
    rcases value x rfl calls with ⟨n, ends⟩
    refine ⟨n + 1, ops, by rw [carried], ?_⟩
    rw [next, hosting, host]
    exact ends
  | error p =>
    refine ⟨1, ops, by rw [carried], ?_⟩
    rw [next, hosting, host]
    exact panic p rfl

/-- Before a thunk the machine ends as the frames below go on from its value. -/
theorem Concludes.before_thunk {rest : Stack B P a β ρ} {code : Host B.World β}
    {exit : Except Panic β} (host : sc.host code = (exit, sc₁))
    (after : Settles bodies rt f site rest (.ofThunk exit) sc₁ ops e sc')
    (ops₀ : List (Executed B P))
    (carried : ∀ calls, (⟨f, calls, site, control, stack⟩ : State B P ρ).executes sc = ops₀)
    (next : ∀ calls, (⟨f, calls, site, control, stack⟩ : State B P ρ).step bodies rt sc =
      hosting f site code rest sc fun x sc => yield f calls site (.ok x) rest sc) :
    Concludes bodies rt f site control stack sc (ops₀ ++ ops) e sc' := by
  refine Concludes.before_host (c := fun x => .give (.ok x)) host ?_ ?_ ops₀ carried next
  · rintro x rfl
    exact after
  · rintro p rfl
    exact after

/-- Before a call that is made at once the machine ends as the frames below go on from its
result. -/
theorem Concludes.before_call {code : Host B.World (Except Failure α)}
    {exit : Except Panic (Except Failure α)} (host : sc.host code = (exit, sc₁))
    (after : Settles bodies rt f site stack (.ofCall exit) sc₁ ops e sc')
    (ops₀ : List (Executed B P))
    (carried : ∀ calls, (⟨f, calls, site, control, stack⟩ : State B P ρ).executes sc = ops₀)
    (next : ∀ calls, (⟨f, calls, site, control, stack⟩ : State B P ρ).step bodies rt sc =
      calling f calls site code stack sc) :
    Concludes bodies rt f site control stack sc (ops₀ ++ ops) e sc' := by
  refine Concludes.before_host (c := fun r : Except Failure α => .give (r.mapError .errored)) host
    ?_ ?_ ops₀ carried next
  · rintro x rfl
    exact after
  · rintro p rfl
    exact after

/-- A blocking call ends as the call, whatever it has to wait for. -/
theorem Concludes.before_block {code : Host B.World (Except Failure α)}
    {exit : Except Panic (Except Failure α)} (host : sc.host code = (exit, sc₁))
    (after : Settles bodies rt f site stack (.ofCall exit) sc₁ ops e sc') (turns : Nat) :
    Concludes bodies rt f site (.block turns code) stack sc ops e sc' := by
  induction turns with
  | zero => exact Concludes.before_call host after [] (fun _ => rfl) fun _ => rfl
  | succ turns ih =>
    intro calls
    rcases ih calls with ⟨n, ends⟩
    exact ⟨n + 1, ops, rfl, ends⟩

theorem Concludes.before_blocking {p : Program B P a α} {code : Host B.World (Except Failure α)}
    {exit : Except Panic (Except Failure α)} {sc₀ : Scene B} (host : sc₀.host code = (exit, sc₁))
    (after : Settles bodies rt f site stack (.ofCall exit) sc₁ ops e sc')
    (leaf : p.isLeaf = true) (clear : sc.fibers.isCanceled f = false)
    (next : ∀ calls, run bodies rt f calls site p stack sc =
      blocking f calls site rt code stack sc₀) :
    Concludes bodies rt f site (.run p) stack sc (⟨site.handle, p⟩ :: ops) e sc' := by
  intro calls
  rcases Concludes.before_block host after (rt.turns calls) (calls + 1) with ⟨n, ends⟩
  refine ⟨n + 1, ops, by rw [executes_of_clear leaf clear]; rfl, ?_⟩
  have first : (⟨f, calls, site, .run p, stack⟩ : State B P ρ).step bodies rt sc = _ := next calls
  rw [first]
  exact ends

theorem Concludes.before_build {code : Host B.World γ} {k : γ → Program B P a α}
    {exit : Except Panic γ} (host : sc.host code = (exit, sc₁))
    (value : ∀ x, exit = .ok x → Concludes bodies rt f site (.run (k x)) stack sc₁ ops e sc')
    (panic : ∀ p, exit = .error p → ops = [] ∧ e = .breaks p ∧ sc' = stack.abandon f site sc₁) :
    Concludes bodies rt f site (.run (.build code k)) stack sc ops e sc' :=
  Concludes.before_host (c := fun x => .run (k x)) host value panic [] (fun _ => rfl) fun _ => rfl

end State

/-! ## Every rule -/

section Rules

open State

/-- A program with a stack below it is carried out as it means, and then the stack goes on. -/
theorem Means.concludes {bodies : Bodies B P} (rt : Runtime) {f : Fiber} {a : Algebra} {α : Type}
    {around : List Algebra} {handle : B.Handle a} {p : Program B P a α} {sc sc₁ sc' : Scene B}
    {ops ops' : List (Executed B P)} {e₁ : Exit α} {e : Exit ρ}
    (h : Means bodies f around handle p sc ops e₁ sc₁) (entry : Nat) (stack : Stack B P a α ρ)
    (after : Settles bodies rt f ⟨handle, entry, around⟩ stack e₁ sc₁ ops' e sc') :
    Concludes bodies rt f ⟨handle, entry, around⟩ (.run p) stack sc (ops ++ ops') e sc' := by
  -- for all stacks at once, since the parts of a program are run on the frames it puts on
  induction h generalizing entry ops' ρ with
  | refused operation canceled =>
    exact Concludes.before_quiet (fun _ => executes_of_canceled canceled)
      (fun _ => run_of_canceled operation canceled) after
  | pure => exact Concludes.before_quiet (fun _ => rfl) (fun _ => rfl) after
  | build host _ ih =>
    refine Concludes.before_build host ?_ nofun
    rintro x ⟨⟩
    exact ih entry stack after
  | build_broken host =>
    refine Concludes.before_build host nofun ?_
    rintro p ⟨⟩
    exact after
  | call _ ih =>
    refine Concludes.before_quiet (fun _ => rfl) (fun _ => rfl) ?_
    exact ih entry stack after
  | map _ host ih =>
    refine Concludes.before_quiet (fun _ => rfl) (fun _ => rfl) ?_
    apply ih
    exact Concludes.before_thunk host after [] (fun _ => rfl) fun _ => rfl
  | map_stop _ stop ih =>
    refine Concludes.before_quiet (fun _ => rfl) (fun _ => rfl) ?_
    exact ih entry _ (Settles.cons stop after)
  | bind _ _ ih₁ ih₂ =>
    rw [List.append_assoc]
    refine Concludes.before_quiet (fun _ => rfl) (fun _ => rfl) ?_
    apply ih₁
    refine Concludes.before_give (fun _ => rfl) ?_
    exact ih₂ entry stack after
  | bind_stop _ stop ih =>
    refine Concludes.before_quiet (fun _ => rfl) (fun _ => rfl) ?_
    exact ih entry _ (Settles.cons stop after)
  | op clear host =>
    exact Concludes.before_blocking host after rfl clear
      fun _ => observing_of_clear clear _
  | raw clear host =>
    exact Concludes.before_blocking host after rfl clear
      fun _ => observing_of_clear clear _
  | delay clear host =>
    exact Concludes.before_thunk host after [_] (fun _ => executes_of_clear rfl clear)
      fun _ => observing_of_clear clear _
  | @suspend _ _ _ _ hint _ _ _ _ clear host =>
    -- the hint decides whether the call is made at once, not what it ends with
    cases blocking : hint.isBlocking with
    | true =>
      refine Concludes.before_blocking host after rfl clear fun calls => ?_
      refine (observing_of_clear clear _).trans ?_
      simp only [blocking, if_true]
    | false =>
      refine Concludes.before_call host after [_]
        (fun _ => executes_of_clear rfl clear) fun calls => ?_
      refine (observing_of_clear clear _).trans ?_
      simp [blocking]
  | raise clear =>
    exact Concludes.before_run [_] (fun _ => executes_of_clear rfl clear)
      (fun calls => ⟨calls, observing_of_clear clear _⟩) after
  | monotonic clear host =>
    exact Concludes.before_thunk host after [_] (fun _ => executes_of_clear rfl clear)
      fun _ => observing_of_clear clear _
  | realtime clear host =>
    exact Concludes.before_thunk host after [_] (fun _ => executes_of_clear rfl clear)
      fun _ => observing_of_clear clear _
  | canceled clear found =>
    refine Concludes.before_run [_] (fun _ => executes_of_clear rfl clear)
      (fun calls => ⟨calls, ?_⟩) after
    exact (observing_of_clear clear _).trans (observing_of_canceled found _)
  | canceled_later clear putOff =>
    refine Concludes.before_run [_] (fun _ => executes_of_clear rfl clear)
      (fun calls => ⟨calls, ?_⟩) after
    exact (observing_of_clear clear _).trans (observing_of_clear putOff _)
  | @embed _ _ _ _ _ _ _ _ e₂ _ _ clear body ih =>
    refine Concludes.before_quiet (fun _ => rfl) (fun _ => observing_of_clear clear _) ?_
    apply ih
    cases e₂ with
    | gives r =>
      -- the mask is back at its entry depth already, so the end of the program changes nothing
      refine Concludes.before_give (fun _ => rfl) ?_
      rw [Scene.setMask_eq_self (body.mask_eq rfl)]
      exact after
    | breaks panic =>
      rcases after with ⟨rfl, rfl, rfl⟩
      exact ⟨rfl, rfl, (Stack.abandon_setMask f _ stack _ _).symm⟩
  | handleError clear _ _ ih₁ ih₂ =>
    rw [List.append_assoc]
    refine Concludes.before_quiet (fun _ => rfl) (fun _ => observing_of_clear clear _) ?_
    apply ih₁
    refine Concludes.before_give (fun _ => rfl) ?_
    exact ih₂ entry stack after
  | handleError_pass clear _ pass ih =>
    refine Concludes.before_quiet (fun _ => rfl) (fun _ => observing_of_clear clear _) ?_
    exact ih entry _ (Settles.cons (by simp [Frame.passes, pass]) after)
  | @forceR _ _ _ _ _ _ _ r _ _ _ _ _ _ clear _ next _ ih₁ ih₂ =>
    rw [List.append_assoc]
    refine Concludes.before_quiet (fun _ => rfl) (fun _ => observing_of_clear clear _) ?_
    apply ih₁
    rcases r with (failure | _) | x
    · exact Concludes.before_give (fun _ => rfl) (ih₂ entry stack after)
    · cases next
    · exact Concludes.before_give (fun _ => rfl) (ih₂ entry stack after)
  | forceR_stop clear _ stop pass ih =>
    refine Concludes.before_quiet (fun _ => rfl) (fun _ => observing_of_clear clear _) ?_
    exact ih entry _ (Settles.cons (by simp [Frame.passes, pass, stop]) after)
  | @onCancel _ _ _ _ _ _ r _ _ _ _ _ clear _ _ ih₁ ih₂ =>
    rw [List.append_assoc]
    refine Concludes.before_quiet (fun _ => rfl) (fun _ => observing_of_clear clear _) ?_
    apply ih₁
    refine Concludes.before_give (fun _ => rfl) ?_
    apply ih₂
    -- however the finalizer ended, the program stays canceled
    rcases r with (failure | _) | x <;> exact Concludes.before_give (fun _ => rfl) after
  | onCancel_broken clear _ _ ih₁ ih₂ =>
    rw [List.append_assoc]
    refine Concludes.before_quiet (fun _ => rfl) (fun _ => observing_of_clear clear _) ?_
    apply ih₁
    refine Concludes.before_give (fun _ => rfl) ?_
    exact ih₂ entry _ (Settles.cons rfl after)
  | onCancel_pass clear _ pass ih =>
    refine Concludes.before_quiet (fun _ => rfl) (fun _ => observing_of_clear clear _) ?_
    exact ih entry _ (Settles.cons (by simp [Frame.passes, pass]) after)
  | region clear _ left ih =>
    refine Concludes.before_quiet (fun _ => rfl) (fun _ => observing_of_clear clear _) ?_
    apply ih
    exact Concludes.before_give (fun _ => observing_of_clear left _) after
  | region_canceled clear _ left ih =>
    refine Concludes.before_quiet (fun _ => rfl) (fun _ => observing_of_clear clear _) ?_
    apply ih
    exact Concludes.before_give (fun _ => observing_of_canceled left _) after
  | region_broken clear _ ih =>
    refine Concludes.before_quiet (fun _ => rfl) (fun _ => observing_of_clear clear _) ?_
    exact ih entry _ (Settles.cons rfl after)
  | poll clear own lowered _ ih =>
    refine Concludes.before_quiet (fun _ => rfl) (fun _ =>
      (run_poll_of_own clear own).trans (observing_of_clear lowered _)) ?_
    apply ih
    exact Concludes.before_give (fun _ => rfl) after
  | poll_canceled clear own lowered =>
    -- the frame is on the stack before the second look, and takes the mask back up
    refine Concludes.before_quiet (fun _ => rfl) (fun _ =>
      (run_poll_of_own clear own).trans (observing_of_canceled lowered _)) ?_
    exact Concludes.before_give (fun _ => rfl) after
  | poll_broken clear own lowered _ ih =>
    refine Concludes.before_quiet (fun _ => rfl) (fun _ =>
      (run_poll_of_own clear own).trans (observing_of_clear lowered _)) ?_
    exact ih entry _ (Settles.cons rfl after)
  | poll_inert clear stale _ ih =>
    refine Concludes.before_quiet (fun _ => rfl) (fun _ => run_poll_of_stale clear stale) ?_
    exact ih entry stack after

end Rules

end Cancelable
