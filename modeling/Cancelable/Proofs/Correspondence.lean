import Cancelable.Proofs.Execution
import Cancelable.Proofs.Splitting

/-!
# The machine and the meaning of programs

The machine keeps a stack of frames and takes small steps; the meaning of a program is given by
recursion on it.  A program that is run by itself has nothing below it on the stack, so what holds
of programs with a stack below them says here that the two agree.

Main statement: the machine comes to an end on a program exactly if the program means to have that
end, and what it returns is the end the program means to have (`Machine.run_iff_means`).
-/

namespace Cancelable

variable {B : Backend} {P : Procedures} {ρ : Type}

namespace State

variable {bodies : Bodies B P} {rt : Runtime} {a : Algebra} {f : Fiber} {sc sc' : Scene B}
  {ops : List (Executed B P)} {e : Exit ρ}

/-! ## Whole runs -/

/-- A program that is run by itself ends exactly as it means to, and the mask of its fiber is set
back. -/
theorem ends_iff {p : Program B P a ρ} {handle : B.Handle a} :
    (∃ n, (start f handle p sc.fibers).Ends bodies rt n sc ops e sc') ↔
      ∃ sc₁, Means bodies f [] handle p sc ops e sc₁ ∧ sc' = sc₁.setMask f (sc.fibers.mask f) := by
  constructor
  · rintro ⟨n, ends⟩
    have within : EndsWithin bodies rt (n + 1) f ⟨handle, sc.fibers.mask f, []⟩ (.run p) .nil sc
        ops e sc' := ⟨0, n, Nat.lt_succ_self n, ends⟩
    rcases within.splits with ⟨ops₁, ops₂, e₁, sc₁, rfl, means, after⟩
    -- nothing is left on the stack, so one more step ends the run and sets the mask
    cases e₁ with
    | gives r =>
      rcases EndsWithin.first after with ⟨calls, ops', k, lt, rfl, rfl, rfl, rfl⟩
      rw [List.append_nil]
      exact ⟨sc₁, means, rfl⟩
    | breaks panic =>
      rcases after with ⟨rfl, rfl, rfl⟩
      rw [List.append_nil]
      exact ⟨sc₁, means, rfl⟩
  · rintro ⟨sc₁, means, rfl⟩
    have after : Settles bodies rt f ⟨handle, sc.fibers.mask f, []⟩ .nil e sc₁ [] e
        (sc₁.setMask f (sc.fibers.mask f)) := by
      cases e with
      | gives r => exact fun calls => ⟨1, [], rfl, rfl, rfl, rfl⟩
      | breaks panic => exact ⟨rfl, rfl, rfl⟩
    rcases means.concludes rt _ _ after 0 with ⟨n, ends⟩
    rw [List.append_nil] at ends
    exact ⟨n, ends⟩

end State

/-! ## The correspondence -/

section Main

variable {a : Algebra} (m : Machine B P) (f : Fiber) (handle : B.Handle a) (p : Program B P a ρ)
  (sc : Scene B)

/-- A run that the machine finishes ends as its program means to. -/
theorem Machine.run_shows :
    Ending.Shows
      (fun e sc' => ∃ ops sc₁, Means m.bodies f [] handle p sc ops e sc₁ ∧
        sc' = e.report a (sc₁.setMask f (sc.fibers.mask f)))
      (m.run f handle p sc) := by
  refine Turn.finish_shows (Run.turn_shows m) m.bound ?_
  refine (Run.turn_shows m (.start f handle p sc.fibers) sc).mono ?_
  rintro e sc' ⟨sc₁, ⟨n, ops, ends⟩, rfl⟩
  rcases State.ends_iff.mp ⟨n, ends⟩ with ⟨sc₂, means, rfl⟩
  exact ⟨ops, sc₂, means, rfl⟩

/-- On every runtime the machine comes to a result exactly if the program means to, with the same
operations carried out in the same order and the same scene in the end; it is broken off exactly if
the program means to be, and then it sets the mask of its fiber back.  The meaning of a program is
unique, and what the machine returns is that. -/
theorem Machine.run_iff_means :
    (∀ rt ops r sc',
      (∃ n, (State.start f handle p sc.fibers).Ends m.bodies rt n sc ops (.gives r) sc') ↔
        Means m.bodies f [] handle p sc ops (.gives r) sc') ∧
    (∀ rt ops panic sc',
      (∃ n, (State.start f handle p sc.fibers).Ends m.bodies rt n sc ops (.breaks panic) sc') ↔
        ∃ sc₁, Means m.bodies f [] handle p sc ops (.breaks panic) sc₁ ∧
          sc' = sc₁.setMask f (sc.fibers.mask f)) ∧
    (∀ ops ops' e e' sc₁ sc₂, Means m.bodies f [] handle p sc ops e sc₁ →
      Means m.bodies f [] handle p sc ops' e' sc₂ →
        ops = ops' ∧ e = e' ∧
          sc₁.setMask f (sc.fibers.mask f) = sc₂.setMask f (sc.fibers.mask f)) ∧
    (∀ o sc', m.run f handle p sc = (.outcome o, sc') →
      ∃ ops sc₁, Means m.bodies f [] handle p sc ops (.gives o.toExcept) sc₁ ∧
        sc' = sc₁.emit (.ended a (o.toExcept.map fun _ => ())) []) ∧
    (∀ panic sc', m.run f handle p sc = (.panicked panic, sc') →
      ∃ ops sc₁, Means m.bodies f [] handle p sc ops (.breaks panic) sc₁ ∧
        sc' = sc₁.setMask f (sc.fibers.mask f)) := by
  have kept {ops r sc₁} (means : Means m.bodies f [] handle p sc ops (.gives r) sc₁) :
      sc₁.setMask f (sc.fibers.mask f) = sc₁ := Scene.setMask_eq_self (means.mask_eq rfl)
  -- a result leaves the mask as it was, so setting it back is seen only when host code breaks off
  have shows := m.run_shows f handle p sc
  refine ⟨fun rt ops r sc' => ?_, fun rt ops panic sc' => State.ends_iff, ?_, ?_, ?_⟩
  · rw [State.ends_iff]
    constructor
    · rintro ⟨sc₁, means, rfl⟩
      rw [kept means]
      exact means
    · intro means
      exact ⟨sc', means, (kept means).symm⟩
  · intro ops ops' e e' sc₁ sc₂ means means'
    -- two meanings are two ends of one run
    have ending {ops e sc₁} (means : Means m.bodies f [] handle p sc ops e sc₁) :
        ∃ n, (State.start f handle p sc.fibers).Ends m.bodies m.runtime n sc ops e
          (sc₁.setMask f (sc.fibers.mask f)) := State.ends_iff.mpr ⟨sc₁, means, rfl⟩
    rcases ending means with ⟨n, ends⟩
    rcases ending means' with ⟨n', ends'⟩
    exact ends.unique ends'
  · intro o sc' run
    rw [run] at shows
    rcases shows with ⟨ops, sc₁, means, rfl⟩
    rw [kept means]
    exact ⟨ops, sc₁, means, rfl⟩
  · intro panic sc' run
    rw [run] at shows
    exact shows

end Main

/-- A poll in a region that requests its own cancellation: the finalizer writes, what follows does
not, and the region ends canceled. -/
theorem Machine.means_of_canceled_poll :
    let f : Fiber := ⟨.numbered 0, .numbered 0⟩
    let m : Machine .notes .none := ⟨Bodies.none, .stepped, 20⟩
    let body (token : Token) : Program .notes .none .connection Unit :=
      .bind (.poll token (.onCancel .canceled (.note 0))) fun _ => .note 1
    ∃ ops sc', Means m.bodies f [] () (.uncancelable body) (.blank {}) ops
      (.gives (.error .canceled)) sc' ∧ sc'.world = [0] := by
  intro f m body
  rcases m.run_iff_means f () (.uncancelable body) (.blank {}) with ⟨_, _, _, outcome, _⟩
  have run : m.run f () (.uncancelable body) (.blank {}) = (.outcome .canceled, _) := rfl
  rcases outcome .canceled _ run with ⟨ops, sc', means, eq⟩
  refine ⟨ops, sc', means, ?_⟩
  have world := congrArg Scene.world eq
  exact world.symm

end Cancelable
