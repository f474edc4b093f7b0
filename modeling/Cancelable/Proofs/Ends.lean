import Cancelable.Machine.Run
import Cancelable.Proofs.Meaning

/-!
# Runs that end

A run to which nobody else does anything ends in a number of steps, or never.  Here the number, the
operations carried out on the way, the end and the scene that is left are put into one relation, and
the turns of the machine, each of which is bounded, are related to it.

Main statements: a run ends in one way only (`State.Ends.unique`), and what the machine reports of
the turns it gave to a program is true of the run (`Run.turn_shows`, `Turn.finish_shows`).
-/

namespace Cancelable

variable {B : Backend} {P : Procedures} {ρ : Type}

/-! ## Ends -/

/-- What is left of a run after a step: operations, an end, and the scene at the end. -/
def Next.After
    (Q : State B P ρ → Scene B → List (Executed B P) → Exit ρ → Scene B → Prop) :
    Next B P ρ → List (Executed B P) → Exit ρ → Scene B → Prop
  | .more s sc, ops, e, sc' => Q s sc ops e sc'
  | .waiting s sc, ops, e, sc' => Q s sc ops e sc'
  | .ended r sc, ops, e, sc' => ops = [] ∧ e = .gives r ∧ sc' = sc
  | .panicked p sc, ops, e, sc' => ops = [] ∧ e = .breaks p ∧ sc' = sc

namespace State

/-- A run to which nobody else does anything ends in a number of steps: it carries out the
operations, in this order, ends so, and leaves this scene. -/
def Ends (bodies : Bodies B P) (rt : Runtime) :
    Nat → State B P ρ → Scene B → List (Executed B P) → Exit ρ → Scene B → Prop
  | 0, _, _, _, _, _ => False
  | n + 1, s, sc, ops, e, sc' =>
    ∃ ops', ops = s.executes sc ++ ops' ∧
      (s.step bodies rt sc).After (Ends @bodies rt n) ops' e sc'

/-- A run ends in one way only. -/
theorem Ends.unique {bodies : Bodies B P} {rt : Runtime} {n n' : Nat} {s : State B P ρ}
    {sc sc₁ sc₂ : Scene B} {ops ops' : List (Executed B P)} {e e' : Exit ρ}
    (h : s.Ends bodies rt n sc ops e sc₁) (h' : s.Ends bodies rt n' sc ops' e' sc₂) :
    ops = ops' ∧ e = e' ∧ sc₁ = sc₂ := by
  induction n generalizing n' s sc ops ops' with
  | zero => exact h.elim
  | succ n ih =>
    cases n' with
    | zero => exact h'.elim
    | succ n' =>
      rcases h with ⟨l, rfl, k⟩
      rcases h' with ⟨l', rfl, k'⟩
      rw [List.append_cancel_left_eq]
      -- both runs make the same step, so they end together or have the same rest
      cases next : s.step bodies rt sc with
      | more s₁ sc₃ =>
        rw [next] at k k'
        exact ih k k'
      | waiting s₁ sc₃ =>
        rw [next] at k k'
        exact ih k k'
      | ended r sc₃ =>
        rw [next] at k k'
        rcases k with ⟨rfl, rfl, rfl⟩
        rcases k' with ⟨rfl, rfl, rfl⟩
        exact ⟨rfl, rfl, rfl⟩
      | panicked p sc₃ =>
        rw [next] at k k'
        rcases k with ⟨rfl, rfl, rfl⟩
        rcases k' with ⟨rfl, rfl, rfl⟩
        exact ⟨rfl, rfl, rfl⟩

section Parts

variable {a : Algebra} {α β : Type} {f : Fiber} {calls : Nat} {site : Site B a}
  {stack : Stack B P a α ρ} {sc : Scene B}

theorem executes_of_canceled {control : Control B P a α}
    (canceled : sc.fibers.isCanceled f = true) :
    (⟨f, calls, site, control, stack⟩ : State B P ρ).executes sc = [] := by
  cases control with
  | run p => simp [executes, canceled]
  | give r => rfl
  | block turns code => rfl

theorem executes_of_clear {p : Program B P a α} (leaf : p.isLeaf = true)
    (clear : sc.fibers.isCanceled f = false) :
    (⟨f, calls, site, .run p, stack⟩ : State B P ρ).executes sc = [⟨site.handle, p⟩] := by
  simp [executes, leaf, clear]

end Parts

end State

/-- Giving up a program sets the mask anyway. -/
theorem Stack.abandon_setMask {a : Algebra} {α : Type} (f : Fiber) (site : Site B a)
    (stack : Stack B P a α ρ) (sc : Scene B) (n : Nat) :
    stack.abandon f site (sc.setMask f n) = stack.abandon f site sc := by
  induction stack generalizing sc with
  | nil => exact Scene.setMask_setMask sc f n _
  | cons frame rest ih => exact ih site sc
  | embedded outside rest ih =>
    show rest.abandon f outside ((sc.setMask f n).setMask f site.entry) = _
    rw [Scene.setMask_setMask]
    rfl

/-! ## What frames make of an end -/

/-- The end that a frame hands on without doing anything for it. -/
def Frame.passes {a : Algebra} {α β : Type} : Frame B P a α β → Exit α → Option (Exit β)
  | .map _, e => e.valueless
  | .bind _, e => e.valueless
  | .recover _, e => if e.isFailure then none else some e
  | .forceR _, e => if e.isFailure then none else e.valueless
  | .onCancel _, e => if e.isCanceled then none else some e
  | .finalizing _, .breaks panic => some (.breaks panic)
  | .region _, .breaks panic => some (.breaks panic)
  | .unmasked _, .breaks panic => some (.breaks panic)
  | _, .gives _ => none

namespace Frame

variable {a : Algebra} {α β : Type} {frame : Frame B P a α β} {e : Exit β}

theorem eq_of_passes_breaks {panic : Panic} (h : frame.passes (.breaks panic) = some e) :
    e = .breaks panic := by
  cases frame <;> exact (Option.some.inj h).symm

/-- A result that is handed on takes one step. -/
theorem resume_of_passes {r : Except Interrupted α} (h : frame.passes (.gives r) = some e)
    (rest : Stack B P a β ρ) :
    ∃ r', e = .gives r' ∧ ∀ f calls site sc,
      State.resume f calls site frame r rest sc = State.yield f calls site r' rest sc := by
  cases frame with
  | map g =>
    rcases r with i | x
    · cases h
      exact ⟨_, rfl, fun _ _ _ _ => rfl⟩
    · cases h
  | bind k =>
    rcases r with i | x
    · cases h
      exact ⟨_, rfl, fun _ _ _ _ => rfl⟩
    · cases h
  | recover handler =>
    rcases r with (failure | _) | x
    · cases h
    · cases h
      exact ⟨_, rfl, fun _ _ _ _ => rfl⟩
    · cases h
      exact ⟨_, rfl, fun _ _ _ _ => rfl⟩
  | forceR next =>
    rcases r with (failure | _) | x
    · cases h
    · cases h
      exact ⟨_, rfl, fun _ _ _ _ => rfl⟩
    · cases h
  | onCancel finalizer =>
    rcases r with (failure | _) | x
    · cases h
      exact ⟨_, rfl, fun _ _ _ _ => rfl⟩
    · cases h
    · cases h
      exact ⟨_, rfl, fun _ _ _ _ => rfl⟩
  -- frames that set the mask back never just hand a result on
  | finalizing level => cases h
  | region level => cases h
  | unmasked level => cases h

end Frame

namespace Exit

variable {α : Type}

theorem valueless_or (β : Type) (e : Exit α) :
    (∃ e' : Exit β, e.valueless = some e') ∨ ∃ x, e = .gives (.ok x) := by
  rcases e with (i | x) | panic
  · exact .inl ⟨_, rfl⟩
  · exact .inr ⟨x, rfl⟩
  · exact .inl ⟨_, rfl⟩

theorem isFailure_or (e : Exit α) :
    e.isFailure = false ∨ ∃ failure, e = .gives (.error (.errored failure)) := by
  rcases e with ((failure | _) | x) | panic
  · exact .inr ⟨failure, rfl⟩
  · exact .inl rfl
  · exact .inl rfl
  · exact .inl rfl

theorem isCanceled_or (e : Exit α) : e.isCanceled = false ∨ e = .gives (.error .canceled) := by
  rcases e with ((failure | _) | x) | panic
  · exact .inl rfl
  · exact .inr rfl
  · exact .inl rfl
  · exact .inl rfl

end Exit

/-! ## Turns -/

/-- What the end of a turn says about the run it is part of, given how what is pending may end. -/
def Turn.Shows {S : Type 1} (E : S → Scene B → Exit ρ → Scene B → Prop)
    (Q : Exit ρ → Scene B → Prop) : Turn S ρ × Scene B → Prop
  | (.pending s, sc) => ∀ e sc', E s sc e sc' → Q e sc'
  | (.ended r, sc) => Q (.gives r) sc
  | (.panicked panic, sc) => Q (.breaks panic) sc
  | (.exhausted, _) => True

/-- What the end of a run that was given all its turns says about it. -/
def Ending.Shows (Q : Exit ρ → Scene B → Prop) : Ending ρ × Scene B → Prop
  | (.outcome o, sc) => Q (.gives o.toExcept) sc
  | (.panicked panic, sc) => Q (.breaks panic) sc
  | (.exhausted, _) => True

namespace Turn

variable {S : Type 1} {E : S → Scene B → Exit ρ → Scene B → Prop} {Q Q' : Exit ρ → Scene B → Prop}

theorem Shows.mono {t : Turn S ρ × Scene B} (weaken : ∀ e sc, Q e sc → Q' e sc)
    (h : Shows E Q t) : Shows E Q' t := by
  rcases t with ⟨s | r | panic | _, sc⟩
  · intro e sc' ends
    exact weaken e sc' (h e sc' ends)
  · exact weaken _ _ h
  · exact weaken _ _ h
  · exact trivial

/-- If every turn says the truth about its run, so does the end of all turns. -/
theorem finish_shows {turn : S → Scene B → Turn S ρ × Scene B}
    (truth : ∀ s sc, Shows E (E s sc) (turn s sc)) (bound : Nat) {t : Turn S ρ × Scene B}
    (h : Shows E Q t) : Ending.Shows Q (finish turn bound t) := by
  have outcome (r : Except Interrupted ρ) (sc : Scene B) (ended : Q (.gives r) sc) :
      Q (.gives (Outcome.ofExcept r).toExcept) sc := by
    rw [Outcome.toExcept_ofExcept]
    exact ended
  induction bound generalizing t with
  | zero =>
    rcases t with ⟨s | r | panic | _, sc⟩
    · exact trivial
    · exact outcome r sc h
    · exact h
    · exact trivial
  | succ bound ih =>
    rcases t with ⟨s | r | panic | _, sc⟩
    · -- what is pending is given its next turn, which says the truth about it
      have later : Shows E Q (turn s sc) := (truth s sc).mono h
      exact ih later
    · exact outcome r sc h
    · exact h
    · exact trivial

end Turn

namespace State

/-- A run that is left alone ends so in some number of steps. -/
def EndsSo (bodies : Bodies B P) (rt : Runtime) (s : State B P ρ) (sc : Scene B) (e : Exit ρ)
    (sc' : Scene B) : Prop :=
  ∃ n ops, s.Ends bodies rt n sc ops e sc'

variable {bodies : Bodies B P} {rt : Runtime}

theorem EndsSo.before {s s' : State B P ρ} {sc sc₁ sc' : Scene B} {e : Exit ρ}
    (next : s.step bodies rt sc = .more s' sc₁ ∨ s.step bodies rt sc = .waiting s' sc₁)
    (h : s'.EndsSo bodies rt sc₁ e sc') : s.EndsSo bodies rt sc e sc' := by
  rcases h with ⟨n, ops, ends⟩
  refine ⟨n + 1, s.executes sc ++ ops, ops, rfl, ?_⟩
  rcases next with next | next
  · rw [next]
    exact ends
  · rw [next]
    exact ends

/-- A turn says the truth about its run. -/
theorem turn_shows (bound : Nat) (s : State B P ρ) (sc : Scene B) :
    Turn.Shows (EndsSo bodies rt) (s.EndsSo bodies rt sc) (s.turn bodies rt bound sc) := by
  -- a turn that uses up its bound says nothing
  induction bound generalizing s sc with
  | zero => exact trivial
  | succ bound ih =>
    simp only [turn]
    cases next : s.step bodies rt sc with
    | more s₁ sc₁ =>
      refine (ih s₁ sc₁).mono ?_
      intro e sc' ends
      exact EndsSo.before (.inl next) ends
    | waiting s₁ sc₁ =>
      intro e sc' ends
      exact EndsSo.before (.inr next) ends
    | ended r sc₁ =>
      refine ⟨1, _, [], rfl, ?_⟩
      rw [next]
      exact ⟨rfl, rfl, rfl⟩
    | panicked panic sc₁ =>
      refine ⟨1, _, [], rfl, ?_⟩
      rw [next]
      exact ⟨rfl, rfl, rfl⟩

end State

/-- Report the end of a program that has a result. -/
def Exit.report {α : Type} (a : Algebra) : Exit α → Scene B → Scene B
  | .gives r, sc => sc.emit (.ended a (r.map fun _ => ())) []
  | .breaks _, sc => sc

/-- A turn of a program that was started by itself says the truth about its run, which ends with a
report. -/
theorem Run.turn_shows {a : Algebra} (m : Machine B P) (r : Run B P a ρ) (sc : Scene B) :
    Turn.Shows
      (fun (r : Run B P a ρ) sc e sc' =>
        ∃ sc₁, r.state.EndsSo m.bodies m.runtime sc e sc₁ ∧ sc' = e.report a sc₁)
      (fun e sc' => ∃ sc₁, r.state.EndsSo m.bodies m.runtime sc e sc₁ ∧ sc' = e.report a sc₁)
      (r.turn m sc) := by
  have truth : Turn.Shows (State.EndsSo m.bodies m.runtime) (r.state.EndsSo m.bodies m.runtime sc)
      (r.state.turn m.bodies m.runtime m.bound sc) := State.turn_shows m.bound r.state sc
  unfold Run.turn
  revert truth
  rcases r.state.turn m.bodies m.runtime m.bound sc with ⟨s | result | panic | _, sc₁⟩
  · rintro truth e sc' ⟨sc₂, ends, rfl⟩
    exact ⟨sc₂, truth e sc₂ ends, rfl⟩
  · intro truth
    exact ⟨sc₁, truth, rfl⟩
  · intro truth
    exact ⟨sc₁, truth, rfl⟩
  · intro _
    exact trivial

end Cancelable
