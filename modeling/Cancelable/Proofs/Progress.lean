import Cancelable.Proofs.Step

/-!
# Programs in progress

A program in progress takes its steps one after another, and between any two of them others may
change the scene.  They may do what they like to the world, to the requests and to other fibers; a
fiber that is used by this run only keeps its mask depth meanwhile.

Main statement: what holds at the start and is kept by every move holds at every point that is
reached (`State.Progress.invariant`).
-/

namespace Cancelable

variable {B : Backend} {P : Procedures} {ρ : Type}

/-! ## Above a point of the stack -/

namespace Stack

/-- The number of frames and of embedded programs. -/
def height : {a : Algebra} → {α : Type} → Stack B P a α ρ → Nat
  | _, _, .nil => 0
  | _, _, .cons _ rest => rest.height + 1
  | _, _, .embedded _ rest => rest.height + 1

/-- A stack, with the site at its top, that has grown from another one. -/
inductive Over {b : Algebra} {β : Type} (site₀ : Site B b) (base : Stack B P b β ρ) :
    {a : Algebra} → {α : Type} → Site B a → Stack B P a α ρ → Prop where
  | here : Over site₀ base site₀ base
  | cons {a : Algebra} {α γ : Type} {site : Site B a} {frame : Frame B P a α γ}
      {rest : Stack B P a γ ρ} (h : Over site₀ base site rest) :
      Over site₀ base site (.cons frame rest)
  | embedded {a c : Algebra} {α : Type} {outside : Site B a} {inside : Site B c}
      {rest : Stack B P a α ρ} (h : Over site₀ base outside rest) :
      Over site₀ base inside (.embedded outside rest)

theorem Over.height_le {a b : Algebra} {α β : Type} {site₀ : Site B b} {base : Stack B P b β ρ}
    {site : Site B a} {stack : Stack B P a α ρ} (h : Over site₀ base site stack) :
    base.height ≤ stack.height := by
  induction h with
  | here => exact Nat.le_refl _
  | cons _ ih => exact Nat.le_succ_of_le ih
  | embedded _ ih => exact Nat.le_succ_of_le ih

end Stack

/-- What is to be done is still part of the program that was put on top of `base`. -/
def State.Over {b : Algebra} {β : Type} (site₀ : Site B b) (base : Stack B P b β ρ)
    (s : State B P ρ) : Prop :=
  Stack.Over site₀ base s.site s.stack

/-! ## Executed operations -/

/-- An operation that was carried out, with the handle it was carried out on. -/
structure Executed (B : Backend) (P : Procedures) : Type 1 where
  {a : Algebra}
  {α : Type}
  handle : B.Handle a
  operation : Program B P a α

/-- The operation that the next step carries out, if any: a leaf whose observation finds no
cancellation.  A blocking call counts where it is begun. -/
def State.executes (s : State B P ρ) (sc : Scene B) : List (Executed B P) :=
  match s.control with
  | .run p => if p.isLeaf && !sc.fibers.isCanceled s.fiber then [⟨s.site.handle, p⟩] else []
  | _ => []

/-! ## Points of a run -/

/-- What others may do to the scene while the fiber `f` is used by one run only. -/
structure Scene.Spared (f : Fiber) (sc sc' : Scene B) : Prop where
  mask_eq : sc'.fibers.mask f = sc.fibers.mask f
  isRequested : ∀ g, sc.fibers.isRequested g = true → sc'.fibers.isRequested g = true

namespace State

/-- From one point of a run to the next, carrying out operations. -/
inductive Advances (bodies : Bodies B P) (rt : Runtime) :
    State B P ρ → Scene B → List (Executed B P) → State B P ρ → Scene B → Prop where
  | step {s s' : State B P ρ} {sc sc' : Scene B} (h : s.step bodies rt sc = .more s' sc') :
      Advances bodies rt s sc (s.executes sc) s' sc'
  | wait {s s' : State B P ρ} {sc sc' : Scene B} (h : s.step bodies rt sc = .waiting s' sc') :
      Advances bodies rt s sc [] s' sc'
  | others {s : State B P ρ} {sc sc' : Scene B} (h : sc.Spared s.fiber sc') :
      Advances bodies rt s sc [] s sc'

/-- From one point of a run to a later one, such that all states on the way meet a condition, the
first and the last included. -/
inductive Progress (bodies : Bodies B P) (rt : Runtime) (stay : State B P ρ → Prop) :
    State B P ρ → Scene B → List (Executed B P) → State B P ρ → Scene B → Prop where
  | here {s : State B P ρ} {sc : Scene B} (h : stay s) : Progress bodies rt stay s sc [] s sc
  | next {s s' s'' : State B P ρ} {sc sc' sc'' : Scene B} {ops ops' : List (Executed B P)}
      (before : Progress @bodies rt stay s sc ops s' sc')
      (last : Advances bodies rt s' sc' ops' s'' sc'') (h : stay s'') :
      Progress bodies rt stay s sc (ops ++ ops') s'' sc''

variable {bodies : Bodies B P} {rt : Runtime} {stay : State B P ρ → Prop}
  {s s' : State B P ρ} {sc sc' : Scene B} {ops : List (Executed B P)}

theorem fiber_of_moves {m n : Nat} (h : Moves s m s' n) : s'.fiber = s.fiber := by
  cases h <;> rfl

/-- From one point to the next either there is a move, or the state and the depth are kept. -/
theorem Advances.moves (h : Advances bodies rt s sc ops s' sc') :
    Moves s (sc.fibers.mask s.fiber) s' (sc'.fibers.mask s.fiber) ∨
      s' = s ∧ sc'.fibers.mask s.fiber = sc.fibers.mask s.fiber := by
  cases h with
  | step h => exact .inl (moves_of_goesTo (.inl h))
  | wait h => exact .inl (moves_of_goesTo (.inr h))
  | others h => exact .inr ⟨rfl, h.mask_eq⟩

theorem Advances.fiber_eq (h : Advances bodies rt s sc ops s' sc') : s'.fiber = s.fiber := by
  rcases h.moves with moves | ⟨rfl, _⟩
  · exact fiber_of_moves moves
  · rfl

namespace Progress

theorem last (h : Progress bodies rt stay s sc ops s' sc') : stay s' := by
  cases h with
  | here h => exact h
  | next _ _ h => exact h

theorem fiber_eq (h : Progress bodies rt stay s sc ops s' sc') : s'.fiber = s.fiber := by
  induction h with
  | here _ => rfl
  | next _ last _ ih => rw [last.fiber_eq, ih]

/-- What holds of the first state and its depth, and is kept by every move, holds of the last. -/
theorem invariant {I : State B P ρ → Nat → Prop} (h : Progress bodies rt stay s sc ops s' sc')
    (start : I s (sc.fibers.mask s.fiber))
    (keep : ∀ {t t' : State B P ρ} {m n : Nat},
      Moves t m t' n → stay t → stay t' → I t m → I t' n) :
    I s' (sc'.fibers.mask s'.fiber) := by
  induction h with
  | here _ => exact start
  | next before last stays ih =>
    -- others, too, leave the state and the depth alone, so there is nothing to keep
    rcases last.moves with moves | ⟨rfl, depth⟩
    · rw [fiber_of_moves moves]
      exact keep moves before.last stays (ih start)
    · rw [depth]
      exact ih start

theorem trans {s'' : State B P ρ} {sc'' : Scene B} {ops' : List (Executed B P)}
    (h : Progress bodies rt stay s sc ops s' sc')
    (k : Progress bodies rt stay s' sc' ops' s'' sc'') :
    Progress bodies rt stay s sc (ops ++ ops') s'' sc'' := by
  induction k with
  | here _ =>
    rw [List.append_nil]
    exact h
  | next _ last stays ih =>
    rw [← List.append_assoc]
    exact .next (ih h) last stays

end Progress

/-! ## Taking steps -/

/-- Take steps as long as there are any, but not more than a number of them. -/
def after (bodies : Bodies B P) (rt : Runtime) : Nat → State B P ρ → Scene B →
    State B P ρ × Scene B
  | 0, s, sc => (s, sc)
  | n + 1, s, sc =>
    match s.step bodies rt sc with
    | .more s' sc' => after bodies rt n s' sc'
    | .waiting s' sc' => after bodies rt n s' sc'
    | _ => (s, sc)

theorem progress_after (n : Nat) (s : State B P ρ) (sc : Scene B) :
    ∃ ops, Progress bodies rt (fun _ => True) s sc ops (s.after bodies rt n sc).1
      (s.after bodies rt n sc).2 := by
  induction n generalizing s sc with
  | zero => exact ⟨[], .here trivial⟩
  | succ n ih =>
    cases e : s.step bodies rt sc with
    | more s' sc' =>
      rcases ih s' sc' with ⟨ops, rest⟩
      simp only [after, e]
      exact ⟨_, (Progress.next (.here trivial) (.step e) trivial).trans rest⟩
    | waiting s' sc' =>
      rcases ih s' sc' with ⟨ops, rest⟩
      simp only [after, e]
      exact ⟨_, (Progress.next (.here trivial) (.wait e) trivial).trans rest⟩
    | ended r sc' =>
      simp only [after, e]
      exact ⟨[], .here trivial⟩
    | panicked panic sc' =>
      simp only [after, e]
      exact ⟨[], .here trivial⟩

end State

/-! ## A backend of notes -/

/-- A backend on which programs have no resources and write down numbers. -/
def Backend.notes : Backend where
  World := List Nat
  Handle _ := Unit
  invoke _ _ := Host.panic "no resources"
  monotonic := Host.pure 0
  realtime := Host.pure 0

def Procedures.none : Procedures :=
  fun _ _ => PEmpty

def Bodies.none {B : Backend} : Bodies B .none :=
  fun procedure => nomatch procedure

def Program.note {P : Procedures} {a : Algebra} (n : Nat) : Program .notes P a Unit :=
  .delay (Host.modify fun written : List Nat => written ++ [n])

def Scene.blank (fs : Fibers) : Scene .notes :=
  { fibers := fs, world := [] }

end Cancelable
