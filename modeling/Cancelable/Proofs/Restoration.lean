import Cancelable.Machine.Run
import Cancelable.Proofs.Level

/-!
# Runs give the mask back

A program that ends by itself has brought the mask back by its frames.  One that is broken off, by
host code or by whoever gives it up between two turns, leaves its frames on the stack; then the
guards of the programs on the stack set the mask, innermost first.  The guard of the program that
was started first comes last, and it remembers the depth the run found.

Main statement: however a run ends, in whichever turn, its fiber has the mask depth it had at the
first turn, no request has been withdrawn, and giving up a run does nothing else
(`Run.mask_restored`).
-/

namespace Cancelable

variable {B : Backend} {P : Procedures} {ρ : Type}

/-! ## Requests are kept -/

/-- No request is withdrawn from one scene to another. -/
def Scene.Keeps (sc sc' : Scene B) : Prop :=
  ∀ g, sc.fibers.isRequested g = true → sc'.fibers.isRequested g = true

namespace Scene.Keeps

variable {sc sc₁ sc₂ : Scene B}

theorem refl (sc : Scene B) : sc.Keeps sc := by
  intro g requested
  exact requested

theorem trans (h : sc.Keeps sc₁) (k : sc₁.Keeps sc₂) : sc.Keeps sc₂ := by
  intro g requested
  exact k g (h g requested)

theorem setMask (h : sc.Keeps sc₁) (f : Fiber) (n : Nat) : sc.Keeps (sc₁.setMask f n) := by
  intro g requested
  simpa using h g requested

theorem cancel (sc : Scene B) (f : Fiber) :
    sc.Keeps { sc with fibers := sc.fibers.cancel f } := by
  intro g requested
  simp [Fibers.isRequested_cancel, requested]

theorem of_host {α : Type} {code : Host B.World α} {exit : Except Panic α}
    (h : sc.host code = (exit, sc₁)) : sc.Keeps sc₁ := by
  intro g requested
  exact Scene.isRequested_of_host h requested

end Scene.Keeps

/-! ## Orderly steps -/

/-- A step is orderly if it withdraws no request and, should it break off, the programs on the stack
have been given up. -/
def Next.Orderly (sc : Scene B) (giveUp : Scene B → Scene B) : Next B P ρ → Prop
  | .more _ sc' | .waiting _ sc' | .ended _ sc' => sc.Keeps sc'
  | .panicked _ sc' => ∃ sc₁, sc.Keeps sc₁ ∧ sc' = giveUp sc₁

theorem Next.Orderly.goesTo {sc sc' : Scene B} {giveUp : Scene B → Scene B} {s : State B P ρ}
    {next : Next B P ρ} (h : next.Orderly sc giveUp) (goes : next.GoesTo s sc') : sc.Keeps sc' := by
  rcases goes with rfl | rfl
  · exact h
  · exact h

namespace State

section Orderly

variable {a : Algebra} {α β : Type} {f : Fiber} {calls : Nat} {site : Site B a}
  {stack : Stack B P a α ρ} {sc : Scene B}

theorem orderly_hosting {code : Host B.World β} {next : β → Scene B → Next B P ρ}
    (value : ∀ x sc', sc.Keeps sc' → (next x sc').Orderly sc (stack.abandon f site)) :
    (hosting f site code stack sc next).Orderly sc (stack.abandon f site) :=
  hosting_cases (fun x sc' host => value x sc' (Scene.Keeps.of_host host))
    fun _ sc' host => ⟨sc', Scene.Keeps.of_host host, rfl⟩

theorem orderly_calling {code : Host B.World (Except Failure α)} :
    (calling f calls site code stack sc).Orderly sc (stack.abandon f site) := by
  apply orderly_hosting
  intro result sc' kept
  exact kept

/-- An observation that finds a cancellation changes no fiber. -/
theorem orderly_observing {sc₁ : Scene B} {giveUp : Scene B → Scene B}
    {next : Scene B → Next B P ρ} (kept : sc.Keeps sc₁)
    (clear : (next sc₁).Orderly sc giveUp) :
    (observing f calls site stack sc₁ next).Orderly sc giveUp :=
  observing_cases (fun _ => kept) fun _ => clear

theorem run_orderly (bodies : Bodies B P) (rt : Runtime) (p : Program B P a α) :
    (run bodies rt f calls site p stack sc).Orderly sc (stack.abandon f site) := by
  have kept : sc.Keeps sc := Scene.Keeps.refl sc
  -- a thunk that yields a value for the frame below
  have thunk {γ : Type} (code : Host B.World γ) (result : γ → Except Interrupted α) :
      (hosting f site code stack sc fun x sc => yield f calls site (result x) stack sc).Orderly sc
        (stack.abandon f site) := by
    apply orderly_hosting
    intro x sc' kept
    exact kept
  cases p with
  | pure x => exact kept
  | build code k =>
    apply orderly_hosting
    intro x sc' kept
    exact kept
  | call procedure => exact kept
  | map p g => exact kept
  | bind p k => exact kept
  | op o => exact orderly_observing kept kept
  | raw code => exact orderly_observing kept kept
  | delay code => exact orderly_observing kept (thunk code _)
  | suspend hint code =>
    apply orderly_observing kept
    split
    · exact kept
    · exact orderly_calling
  | raise failure => exact orderly_observing kept kept
  | monotonic => exact orderly_observing kept (thunk _ _)
  | realtime => exact orderly_observing kept (thunk _ _)
  | canceled =>
    have requested := Scene.Keeps.cancel sc f
    exact orderly_observing kept (orderly_observing requested requested)
  | embed handle p => exact orderly_observing kept kept
  | handleError p handler => exact orderly_observing kept kept
  | forceR p q => exact orderly_observing kept kept
  | onCancel p finalizer => exact orderly_observing kept kept
  | uncancelable body => exact orderly_observing kept (kept.setMask f _)
  | poll token p =>
    apply orderly_observing kept
    simp only
    split
    · have lowered := kept.setMask f token.outer
      exact orderly_observing lowered lowered
    · exact kept

theorem resume_orderly (frame : Frame B P a α β) (r : Except Interrupted α)
    (rest : Stack B P a β ρ) :
    (resume f calls site frame r rest sc).Orderly sc (rest.abandon f site) := by
  have kept : sc.Keeps sc := Scene.Keeps.refl sc
  cases frame with
  | map g =>
    cases r with
    | ok x =>
      apply orderly_hosting
      intro y sc' kept
      exact kept
    | error i => exact kept
  | bind k => cases r <;> exact kept
  | recover handler => rcases r with (_ | _) | _ <;> exact kept
  | forceR next => rcases r with (_ | _) | _ <;> exact kept
  | onCancel finalizer =>
    rcases r with (failure | _) | x
    · exact kept
    · exact kept.setMask f _
    · exact kept
  | finalizing level =>
    have restored := kept.setMask f level
    rcases r with (failure | _) | x <;> exact restored
  | region level =>
    have restored := kept.setMask f level
    exact orderly_observing restored restored
  | unmasked level => exact kept.setMask f level

end Orderly

/-- Every step withdraws no request, and gives up the programs on the stack if it breaks off. -/
theorem step_orderly (bodies : Bodies B P) (rt : Runtime) (s : State B P ρ) (sc : Scene B) :
    (s.step bodies rt sc).Orderly sc s.abandon := by
  have kept : sc.Keeps sc := Scene.Keeps.refl sc
  rcases s with ⟨f, calls, site, control, stack⟩
  cases control with
  | run p => exact run_orderly bodies rt p
  | give r =>
    cases stack with
    | nil => exact kept.setMask f _
    | cons frame rest => exact resume_orderly frame r rest
    | embedded outside rest => exact kept.setMask f _
  | block turns code =>
    cases turns with
    | zero => exact orderly_calling
    | succ turns => exact kept

end State

/-! ## Giving up -/

/-- Giving up the programs of a stack sets the mask to the depth at the bottom of the stack. -/
theorem Stack.abandon_eq_setMask {a : Algebra} {α : Type} {m₀ m : Nat} {site : Site B a}
    {stack : Stack B P a α ρ} (level : stack.level? m₀ site = some m) (f : Fiber) (sc : Scene B) :
    stack.abandon f site sc = sc.setMask f m₀ := by
  induction stack generalizing sc m with
  | nil =>
    -- at the bottom the walk has compared the entry depth with the depth it began at
    have bottom : m = m₀ ∧ m₀ = m := by
      simpa [Stack.level?, Stack.entry_eq_of_bare level rfl] using level
    have entry : site.entry = m₀ := (Stack.entry_eq_of_bare level rfl).trans bottom.1
    simp [Stack.abandon, entry]
  | cons frame rest ih =>
    rcases Stack.level?_rest level with ⟨n, below, _⟩
    exact ih below sc
  | embedded outside rest ih =>
    rcases Option.bind_eq_some_iff.mp level with ⟨n, below, _⟩
    calc
      rest.abandon f outside (sc.setMask f site.entry)
          = (sc.setMask f site.entry).setMask f m₀ := ih below _
      _ = sc.setMask f m₀ := Scene.setMask_setMask sc f _ m₀

/-! ## Turns -/

namespace Turn

variable {S : Type 1}

/-- What is pending after a turn, and the scene, meet a condition; or the turn has brought the end,
and the scene meets another. -/
def Meets (I : S → Scene B → Prop) (Q : Scene B → Prop) : Turn S ρ × Scene B → Prop
  | (.pending s, sc) => I s sc
  | (.ended _, sc) => Q sc
  | (.panicked _, sc) => Q sc
  | (.exhausted, _) => True

end Turn

namespace State

variable {bodies : Bodies B P} {rt : Runtime}

/-- What every step keeps until the end holds of what is pending after a turn. -/
theorem turn_meets {I : State B P ρ → Scene B → Prop} {Q : Scene B → Prop}
    (goes : ∀ s sc s' sc', I s sc → (s.step bodies rt sc).GoesTo s' sc' → I s' sc')
    (ended : ∀ s sc r sc', I s sc → s.step bodies rt sc = .ended r sc' → Q sc')
    (panicked : ∀ s sc panic sc', I s sc → s.step bodies rt sc = .panicked panic sc' → Q sc')
    (bound : Nat) {s : State B P ρ} {sc : Scene B} (holds : I s sc) :
    Turn.Meets I Q (s.turn bodies rt bound sc) := by
  induction bound generalizing s sc with
  | zero => exact trivial
  | succ bound ih =>
    simp only [turn]
    cases next : s.step bodies rt sc with
    | more s' sc' => exact ih (goes s sc s' sc' holds (.inl next))
    | waiting s' sc' => exact goes s sc s' sc' holds (.inr next)
    | ended r sc' => exact ended s sc r sc' holds next
    | panicked panic sc' => exact panicked s sc panic sc' holds next

/-- A point of a run in the fiber `f` that began in the scene `sc₀`: the stack accounts for the mask
depth, from the depth that the run found, and no request has been withdrawn. -/
structure Accounted (f : Fiber) (sc₀ : Scene B) (s : State B P ρ) (sc : Scene B) : Prop where
  fiber_eq : s.fiber = f
  level : s.Level (sc₀.fibers.mask f) (sc.fibers.mask f)
  keeps : sc₀.Keeps sc

end State

/-- What a run that is over leaves behind, if it was begun in the scene `sc₀`: the mask has the
depth it had then, and no request has been withdrawn. -/
structure Scene.Restored (f : Fiber) (sc₀ sc : Scene B) : Prop where
  mask_eq : sc.fibers.mask f = sc₀.fibers.mask f
  keeps : sc₀.Keeps sc

namespace State.Accounted

variable {bodies : Bodies B P} {rt : Runtime} {f : Fiber} {sc₀ sc sc' : Scene B}
  {s s' : State B P ρ}

theorem start {a : Algebra} (f : Fiber) (handle : B.Handle a) (p : Program B P a ρ)
    (sc₀ : Scene B) : (State.start f handle p sc₀.fibers).Accounted f sc₀ sc₀ :=
  ⟨rfl, level_start f handle p sc₀.fibers, .refl sc₀⟩

theorem others (h : s.Accounted f sc₀ sc) (spared : sc.Spared f sc') :
    s.Accounted f sc₀ sc' := by
  have level : s.Level (sc₀.fibers.mask f) (sc'.fibers.mask f) := by
    rw [spared.mask_eq]
    exact h.level
  exact ⟨h.fiber_eq, level, h.keeps.trans spared.isRequested⟩

theorem abandon_eq_setMask (h : s.Accounted f sc₀ sc) (sc₁ : Scene B) :
    s.abandon sc₁ = sc₁.setMask f (sc₀.fibers.mask f) := by
  have level : s.stack.level? (sc₀.fibers.mask f) s.site = some (sc.fibers.mask f) := h.level
  rw [State.abandon, h.fiber_eq]
  exact Stack.abandon_eq_setMask level f sc₁

theorem goesTo (h : s.Accounted f sc₀ sc) (next : (s.step bodies rt sc).GoesTo s' sc') :
    s'.Accounted f sc₀ sc' := by
  obtain rfl : s.fiber = f := h.fiber_eq
  have moves : Moves s (sc.fibers.mask s.fiber) s' (sc'.fibers.mask s.fiber) :=
    moves_of_goesTo next
  have keeps : sc.Keeps sc' := (step_orderly bodies rt s sc).goesTo next
  exact ⟨fiber_of_moves moves, moves.level h.level, h.keeps.trans keeps⟩

/-- The frames of a program that ends have restored the depth already. -/
theorem ended (h : s.Accounted f sc₀ sc) {r : Except Interrupted ρ}
    (next : s.step bodies rt sc = .ended r sc') : sc₀.Restored f sc' := by
  have orderly : (s.step bodies rt sc).Orderly sc s.abandon := step_orderly bodies rt s sc
  rw [next] at orderly
  refine ⟨?_, h.keeps.trans orderly⟩
  rcases eq_of_ended next with ⟨b, g, calls, site, rfl, rfl⟩
  obtain rfl : g = f := h.fiber_eq
  -- nothing is left on the stack, so the last step does what giving up would do
  have last : sc.setMask g site.entry = sc.setMask g (sc₀.fibers.mask g) := h.abandon_eq_setMask sc
  simp [last]

/-- Where host code has broken off, the guards restore it. -/
theorem panicked (h : s.Accounted f sc₀ sc) {panic : Panic}
    (next : s.step bodies rt sc = .panicked panic sc') : sc₀.Restored f sc' := by
  have orderly : (s.step bodies rt sc).Orderly sc s.abandon := step_orderly bodies rt s sc
  rw [next] at orderly
  rcases orderly with ⟨sc₁, keeps, rfl⟩
  rw [h.abandon_eq_setMask sc₁]
  exact ⟨by simp, (h.keeps.trans keeps).setMask f _⟩

end State.Accounted

/-! ## Runs -/

namespace Run

variable {a : Algebra} {m : Machine B P} {f : Fiber} {sc₀ sc : Scene B} {r r₀ : Run B P a ρ}

/-- The points that a run has reached after some turns.  Before each of them others may have done
something to the scene, but have left the mask of the fiber `f` alone. -/
inductive After (m : Machine B P) (f : Fiber) (r₀ : Run B P a ρ) (sc₀ : Scene B) :
    Run B P a ρ → Scene B → Prop where
  | begun : After m f r₀ sc₀ r₀ sc₀
  | turn {r r' : Run B P a ρ} {sc sc' : Scene B} (before : After m f r₀ sc₀ r sc)
      (h : r.turn m sc = (.pending r', sc')) : After m f r₀ sc₀ r' sc'
  | others {r : Run B P a ρ} {sc sc' : Scene B} (before : After m f r₀ sc₀ r sc)
      (h : sc.Spared f sc') : After m f r₀ sc₀ r sc'

theorem turn_meets (h : r.state.Accounted f sc₀ sc) :
    Turn.Meets (fun (r : Run B P a ρ) sc => r.state.Accounted f sc₀ sc) (sc₀.Restored f)
      (r.turn m sc) := by
  have meets : Turn.Meets (fun s sc => s.Accounted f sc₀ sc) (sc₀.Restored f)
      (r.state.turn m.bodies m.runtime m.bound sc) := by
    apply State.turn_meets
    · intro s sc s' sc' accounted next
      exact accounted.goesTo next
    · intro s sc result sc' accounted next
      exact accounted.ended next
    · intro s sc panic sc' accounted next
      exact accounted.panicked next
    · exact h
  unfold Run.turn
  revert meets
  rcases r.state.turn m.bodies m.runtime m.bound sc with ⟨s | result | panic | _, sc₁⟩
  · intro accounted
    exact accounted
  · intro restored
    exact ⟨restored.mask_eq, restored.keeps⟩
  · intro restored
    exact restored
  · intro _
    exact trivial

theorem After.accounted {handle : B.Handle a} {p : Program B P a ρ}
    (h : After m f (start f handle p sc₀.fibers) sc₀ r sc) : r.state.Accounted f sc₀ sc := by
  induction h with
  | begun => exact .start f handle p sc₀
  | turn before turn ih =>
    have meets := turn_meets (m := m) ih
    rw [turn] at meets
    exact meets
  | others before spared ih => exact ih.others spared

/-- Consider a run that has its fiber to itself, after any number of turns.  If the next turn brings
its end, be it a result or a panic of host code, the mask of the fiber is at the depth of the scene
in which the run was begun.  If the run is given up instead, the mask is set to that depth and
nothing else happens: no operation is carried out, no finalizer is run.  No request has been
withdrawn in any case.  And giving up a run that was given no turn changes nothing at all. -/
theorem mask_restored {handle : B.Handle a} {p : Program B P a ρ}
    (h : After m f (start f handle p sc₀.fibers) sc₀ r sc) :
    (∀ result sc', r.turn m sc = (.ended result, sc') →
      sc'.fibers.mask f = sc₀.fibers.mask f ∧ sc₀.Keeps sc') ∧
    (∀ panic sc', r.turn m sc = (.panicked panic, sc') →
      sc'.fibers.mask f = sc₀.fibers.mask f ∧ sc₀.Keeps sc') ∧
    (r.abandon sc = sc.setMask f (sc₀.fibers.mask f) ∧ sc₀.Keeps (r.abandon sc)) ∧
    (∀ sc', sc₀.Spared f sc' → (start f handle p sc₀.fibers).abandon sc' = sc') := by
  have accounted : r.state.Accounted f sc₀ sc := h.accounted
  have meets := turn_meets (m := m) accounted
  have givenUp : r.abandon sc = sc.setMask f (sc₀.fibers.mask f) := accounted.abandon_eq_setMask sc
  refine ⟨?_, ?_, ⟨givenUp, ?_⟩, ?_⟩
  · intro result sc' turn
    rw [turn] at meets
    exact ⟨meets.mask_eq, meets.keeps⟩
  · intro panic sc' turn
    rw [turn] at meets
    exact ⟨meets.mask_eq, meets.keeps⟩
  · rw [givenUp]
    exact accounted.keeps.setMask f _
  · intro sc' spared
    have begun := State.Accounted.start f handle p sc₀
    calc
      (start f handle p sc₀.fibers).abandon sc'
          = sc'.setMask f (sc₀.fibers.mask f) := begun.abandon_eq_setMask sc'
      _ = sc' := Scene.setMask_eq_self spared.mask_eq

/-- A run that waits for a blocking call, in an embedded program and inside a region, is given up:
the region had raised the mask, and now it is back at zero. -/
theorem mask_restored_when_waiting :
    let f : Fiber := ⟨.numbered 0, .numbered 0⟩
    let m : Machine .notes .none := ⟨Bodies.none, .stepped, 20⟩
    let call : Program .notes .none .largeObject Unit := .suspend .blocking (Host.pure (.ok ()))
    let p : Program .notes .none .connection Unit :=
      .embed (b := .largeObject) () (.uncancelable fun _ => call)
    let sc₀ : Scene .notes := .blank {}
    ∃ r sc, (start f (a := .connection) () p sc₀.fibers).turn m sc₀ = (.pending r, sc) ∧
      sc.fibers.mask f = 1 ∧ (r.abandon sc).fibers.mask f = 0 := by
  intro f m call p sc₀
  have turn : (start f (a := .connection) () p sc₀.fibers).turn m sc₀ = (.pending _, _) := rfl
  obtain ⟨_, _, ⟨givenUp, _⟩, _⟩ := mask_restored (.turn .begun turn)
  refine ⟨_, _, turn, by decide, ?_⟩
  rw [givenUp]
  decide

end Run
end Cancelable
