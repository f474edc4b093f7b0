import Cancelable.Proofs.Oblivious
import Cancelable.Proofs.Relay

/-!
# Programs without polls

Only a poll lowers the mask below where it was when a program was started.  A program in which no
poll occurs, neither in what its closures make nor in the procedures it calls, is therefore never
interrupted once it is started under a mask: whenever the cancellation is requested, none of its
looks finds it, and whatever it comes to is not a cancellation.

Main statement: a program without polls that is started under a mask is shielded until it has
come to its result (`Course.Part.shielded`).
-/

namespace Cancelable

variable {B : Backend} {P : Procedures} {ρ : Type}

/-! ## Where no poll occurs -/

section PollFree

variable (admitted : {a : Algebra} → {α : Type} → P a α → Prop)

/-- No poll occurs in a program, and only admitted procedures are called. -/
def Program.PollFree : {a : Algebra} → {α : Type} → Program B P a α → Prop
  | _, _, .build _ k => ∀ x, (k x).PollFree
  | _, _, .call procedure => admitted procedure
  | _, _, .map p _ => p.PollFree
  | _, _, .bind p k => p.PollFree ∧ ∀ x, (k x).PollFree
  | _, _, .embed _ p => p.PollFree
  | _, _, .handleError p handler => p.PollFree ∧ ∀ failure, (handler failure).PollFree
  | _, _, .forceR p q => p.PollFree ∧ q.PollFree
  | _, _, .uncancelable body => ∀ token, (body token).PollFree
  | _, _, .poll _ _ => False
  | _, _, .onCancel p finalizer => p.PollFree ∧ finalizer.PollFree
  | _, _, .pure _ | _, _, .op _ | _, _, .raw _ | _, _, .delay _ | _, _, .suspend _ _
  | _, _, .raise _ | _, _, .monotonic | _, _, .realtime | _, _, .canceled => True

/-- No poll occurs in what a frame will run. -/
def Frame.PollFree {a : Algebra} {α β : Type} : Frame B P a α β → Prop
  | .bind k => ∀ x, (k x).PollFree admitted
  | .recover handler => ∀ failure, (handler failure).PollFree admitted
  | .forceR next => next.PollFree admitted
  | .onCancel finalizer => finalizer.PollFree admitted
  | .map _ | .finalizing _ | .region _ | .unmasked _ => True

/-- No poll occurs in what is done next. -/
def Control.PollFree {a : Algebra} {α : Type} : Control B P a α → Prop
  | .run p => p.PollFree admitted
  | _ => True

/-- A stack has grown from another one, and no poll occurs in what was put on top. -/
inductive Stack.PollFree {b : Algebra} {β : Type} (site₀ : Site B b) (base : Stack B P b β ρ) :
    {a : Algebra} → {α : Type} → Site B a → Stack B P a α ρ → Prop where
  | here : PollFree site₀ base site₀ base
  | cons {a : Algebra} {α γ : Type} {site : Site B a} {frame : Frame B P a α γ}
      {rest : Stack B P a γ ρ} (free : frame.PollFree admitted)
      (h : PollFree site₀ base site rest) : PollFree site₀ base site (.cons frame rest)
  | embedded {a c : Algebra} {α : Type} {outside : Site B a} {inside : Site B c}
      {rest : Stack B P a α ρ} (h : PollFree site₀ base outside rest) :
      PollFree site₀ base inside (.embedded outside rest)

/-- No poll occurs in what a program on top of a stack has still to do. -/
structure State.PollFree {b : Algebra} {β : Type} (site₀ : Site B b) (base : Stack B P b β ρ)
    (s : State B P ρ) : Prop where
  control : s.control.PollFree admitted
  above : Stack.PollFree admitted site₀ base s.site s.stack

end PollFree

/-! ## Steps -/

section Steps

variable {admitted : {a : Algebra} → {α : Type} → P a α → Prop} {bodies : Bodies B P}
  {rt : Runtime} {a b c : Algebra} {α β γ : Type} {site₀ : Site B b} {base : Stack B P b β ρ}
  {f : Fiber} {calls : Nat} {site : Site B a} {sc : Scene B}

namespace Stack.PollFree

/-- A frame that has a result, but is not of the base, was put on top. -/
theorem of_cons {r : Except Interrupted α} {frame : Frame B P a α γ} {rest : Stack B P a γ ρ}
    (h : Stack.PollFree admitted site₀ base site (.cons frame rest))
    (away : ¬(⟨f, calls, site, .give r, .cons frame rest⟩ : State B P ρ).Back site₀ base) :
    frame.PollFree admitted ∧ Stack.PollFree admitted site₀ base site rest := by
  cases h with
  | here => exact absurd ⟨f, calls, r, rfl⟩ away
  | cons free h => exact ⟨free, h⟩

theorem of_embedded {r : Except Interrupted α} {outside : Site B c} {rest : Stack B P c α ρ}
    (h : Stack.PollFree admitted site₀ base site (.embedded outside rest))
    (away : ¬(⟨f, calls, site, .give r, .embedded outside rest⟩ : State B P ρ).Back site₀ base) :
    Stack.PollFree admitted site₀ base outside rest := by
  cases h with
  | here => exact absurd ⟨f, calls, r, rfl⟩ away
  | embedded h => exact h

end Stack.PollFree

namespace State

theorem run_pollFree {p : Program B P a α} {stack : Stack B P a α ρ}
    (closed : ∀ {a : Algebra} {α : Type} (procedure : P a α), admitted procedure →
      (bodies procedure).PollFree admitted)
    (free : p.PollFree admitted) (above : Stack.PollFree admitted site₀ base site stack) :
    (run bodies rt f calls site p stack sc).GoesOn fun s' _ =>
      PollFree admitted site₀ base s' := by
  -- without a program to run, nothing is asked of what is done next
  have ends (r : Except Interrupted α) :
      PollFree admitted site₀ base ⟨f, calls, site, .give r, stack⟩ := ⟨trivial, above⟩
  have waits (calls turns : Nat) (code : Host B.World (Except Failure α)) :
      PollFree admitted site₀ base ⟨f, calls, site, .block turns code, stack⟩ := ⟨trivial, above⟩
  cases p with
  | pure x => exact ends (.ok x)
  | build code k => exact goesOn_hosting fun x _ _ => ⟨free x, above⟩
  | call procedure => exact ⟨closed procedure free, above⟩
  | map p g => exact ⟨free, .cons trivial above⟩
  | bind p k => exact ⟨free.1, .cons free.2 above⟩
  | op o => exact goesOn_observing (fun _ => ends _) fun _ => waits ..
  | raw code => exact goesOn_observing (fun _ => ends _) fun _ => waits ..
  | delay code =>
    exact goesOn_observing (fun _ => ends _) fun _ => goesOn_hosting fun x _ _ => ends (.ok x)
  | suspend hint code =>
    refine goesOn_observing (fun _ => ends _) fun _ => ?_
    split
    · exact waits ..
    · exact goesOn_calling fun result _ _ => ends _
  | raise failure => exact goesOn_observing (fun _ => ends _) fun _ => ends _
  | monotonic =>
    exact goesOn_observing (fun _ => ends _) fun _ => goesOn_hosting fun x _ _ => ends (.ok x)
  | realtime =>
    exact goesOn_observing (fun _ => ends _) fun _ => goesOn_hosting fun x _ _ => ends (.ok x)
  | canceled =>
    exact goesOn_observing (fun _ => ends _) fun _ =>
      goesOn_observing (fun _ => ends _) fun _ => ends _
  | embed handle p => exact goesOn_observing (fun _ => ends _) fun _ => ⟨free, .embedded above⟩
  | handleError p handler =>
    exact goesOn_observing (fun _ => ends _) fun _ => ⟨free.1, .cons free.2 above⟩
  | forceR p q => exact goesOn_observing (fun _ => ends _) fun _ => ⟨free.1, .cons free.2 above⟩
  | onCancel p finalizer =>
    exact goesOn_observing (fun _ => ends _) fun _ => ⟨free.1, .cons free.2 above⟩
  | uncancelable body =>
    exact goesOn_observing (fun _ => ends _) fun _ => ⟨free _, .cons trivial above⟩
  | poll token p => exact free.elim

theorem resume_pollFree (frame : Frame B P a α γ) (r : Except Interrupted α)
    {rest : Stack B P a γ ρ} (free : frame.PollFree admitted)
    (above : Stack.PollFree admitted site₀ base site rest) :
    (resume f calls site frame r rest sc).GoesOn fun s' _ => PollFree admitted site₀ base s' := by
  have ends (r : Except Interrupted γ) :
      PollFree admitted site₀ base ⟨f, calls, site, .give r, rest⟩ := ⟨trivial, above⟩
  cases frame with
  | map g =>
    cases r with
    | ok x => exact goesOn_hosting fun y _ _ => ends (.ok y)
    | error i => exact ends _
  | bind k =>
    cases r with
    | ok x => exact ⟨free x, above⟩
    | error i => exact ends _
  | recover handler =>
    rcases r with (failure | _) | x
    · exact ⟨free failure, above⟩
    · exact ends _
    · exact ends _
  | forceR next =>
    rcases r with (failure | _) | x
    · exact ⟨free, above⟩
    · exact ends _
    · exact ⟨free, above⟩
  | onCancel finalizer =>
    rcases r with (failure | _) | x
    · exact ends _
    · exact ⟨free, .cons trivial above⟩
    · exact ends _
  | finalizing level => exact ends _
  | region level => exact goesOn_observing (fun _ => ends _) fun _ => ends _
  | unmasked level => exact ends _

/-- What is left of a program without polls after a step is without polls. -/
theorem PollFree.goesTo {s s' : State B P ρ} {sc' : Scene B}
    (closed : ∀ {a : Algebra} {α : Type} (procedure : P a α), admitted procedure →
      (bodies procedure).PollFree admitted)
    (h : s.PollFree admitted site₀ base) (away : ¬s.Back site₀ base)
    (next : (s.step bodies rt sc).GoesTo s' sc') : s'.PollFree admitted site₀ base := by
  obtain ⟨f, calls, site, control, stack⟩ := s
  obtain ⟨free, above⟩ := h
  cases control with
  | run p => exact (run_pollFree closed free above).at next
  | give r =>
    cases stack with
    | nil => rcases next with next | next <;> cases next
    | cons frame rest =>
      obtain ⟨free, above⟩ := above.of_cons away
      exact (resume_pollFree frame r free above).at next
    | embedded outside rest =>
      rcases next with next | next
      · cases next
        exact ⟨trivial, above.of_embedded away⟩
      · cases next
  | block turns code =>
    cases turns with
    | zero =>
      have goes : (calling f calls site code stack sc).GoesOn fun s' _ =>
          PollFree admitted site₀ base s' := goesOn_calling fun _ _ _ => ⟨trivial, above⟩
      exact goes.at next
    | succ turns =>
      rcases next with next | next
      · cases next
      · cases next
        exact ⟨trivial, above⟩

end State

end Steps

/-! ## Under a mask -/

section Shielded

variable {admitted : {a : Algebra} → {α : Type} → P a α → Prop} {bodies : Bodies B P}
  {rt : Runtime} {b : Algebra} {β : Type} {site₀ : Site B b} {base : Stack B P b β ρ} {f : Fiber}
  {m : Nat}

namespace State

/-- A program in progress on top of a stack, in which no poll occurs, and which was started at the
mask depth `m`: the mask is not below that, and neither is a cancellation handed on nor a finalizer
running. -/
structure Shielded (admitted : {a : Algebra} → {α : Type} → P a α → Prop) (f : Fiber) (m : Nat)
    (site₀ : Site B b) (base : Stack B P b β ρ) (s : State B P ρ) (sc : Scene B) : Prop where
  fiber : s.fiber = f
  pollFree : s.PollFree admitted site₀ base
  sheltered : s.Sheltered (.free B) m site₀ base (sc.fibers.mask f)
  climbs : Stack.Climbs site₀ base m s.site s.stack (sc.fibers.mask f)
  calm : s.control.isCanceled = false
  finalizers : s.stack.finalizers = base.finalizers

theorem back_of_give {calls : Nat} {control : Control B P b β} {r : Except Interrupted β}
    (gives : control = .give r) :
    (⟨f, calls, site₀, control, base⟩ : State B P ρ).Back site₀ base :=
  ⟨f, calls, r, by rw [gives]⟩

namespace Shielded

variable {s s' : State B P ρ} {sc sc' : Scene B}

theorem holds (h : s.Shielded admitted f m site₀ base sc) {token : Token} {q : Program B P s.a s.α}
    (poll : s.control = .run (.poll token q)) : False := by
  have free := h.pollFree.control
  rw [poll] at free
  exact free

/-- No look finds a cancellation, unless the program has come to its result. -/
theorem finds_eq_false (h : s.Shielded admitted f m site₀ base sc) (positive : 0 < m)
    (away : ¬s.Back site₀ base) : s.finds sc = false := by
  obtain ⟨f', calls, site, control, stack⟩ := s
  obtain rfl : f' = f := h.fiber
  refine State.finds_of_masked (D := .free B) (Nat.lt_of_lt_of_le positive h.sheltered.floor_le)
    ?_ (fun token q poll _ => (h.holds poll).elim)
  intro r gives
  have above : Stack.Above (.free B) m site₀ base site stack := h.sheltered.above
  cases above with
  | here => exact absurd (back_of_give gives) away
  | cons obeys high _ =>
    refine ⟨obeys, ?_⟩
    intro level looks
    exact Nat.lt_of_lt_of_le positive (high level (Frame.level?_of_looksAt? looks))
  | embedded _ _ => exact trivial

/-- A step of the program is shielded as well. -/
theorem goesTo (closed : ∀ {a : Algebra} {α : Type} (procedure : P a α), admitted procedure →
      (bodies procedure).PollFree admitted)
    (h : s.Shielded admitted f m site₀ base sc) (positive : 0 < m) (away : ¬s.Back site₀ base)
    (next : (s.step bodies rt sc).GoesTo s' sc') : s'.Shielded admitted f m site₀ base sc' := by
  obtain rfl := h.fiber
  have moves := State.moves_of_goesTo next
  have climbs := moves.climbs away h.climbs
  have flow : Flows s false s' := h.finds_eq_false positive away ▸ flows_of_goesTo next
  have grown : s.stack.finalizers ≤ s'.stack.finalizers := by
    rw [h.finalizers]
    exact climbs.grown.finalizers_le
  obtain ⟨calm, finalizers⟩ := flow.quiet h.calm grown
  have sheltered : s'.Sheltered (.free B) m site₀ base (sc'.fibers.mask s.fiber) := by
    rcases h.sheltered.step rt (Discipline.kept_free bodies) trivial
      (fun token q poll _ => (h.holds poll).elim) with goes | ⟨r, sc'', ended⟩
    · exact goes.at next climbs.grown
    · rcases next with next | next <;> cases ended.symm.trans next
  exact ⟨State.fiber_of_moves moves, h.pollFree.goesTo closed away next, sheltered, climbs, calm,
    finalizers.trans h.finalizers⟩

end Shielded

end State

namespace Course

/-- From step `i` to step `j` the mask is not below the depth `m`, no look finds a cancellation, and
none is handed on. -/
structure Shielded (run : Nat → Course B P ρ) (f : Fiber) (m i j : Nat) : Prop where
  masked : ∀ k, i ≤ k → k ≤ j → m ≤ (run k).scene.fibers.mask f
  uninterrupted : ∀ k, i ≤ k → k < j → (run k).state.finds (run k).scene = false
  calm : ∀ k, i ≤ k → k ≤ j → (run k).state.control.isCanceled = false

/-- A program without polls that is started under a mask is shielded until it has come to its
result. -/
theorem Part.shielded {others : Nat → Scene B → Scene B} {run : Nat → Course B P ρ} {i j : Nat}
    {p : Program B P b β} {r : Except Interrupted β}
    (steps : ∀ n, run (n + 1) = (run n).next bodies rt others)
    (keeps : ∀ n (sc : Scene B), (others n sc).fibers.mask f = sc.fibers.mask f)
    (closed : ∀ {a : Algebra} {α : Type} (procedure : P a α), admitted procedure →
      (bodies procedure).PollFree admitted)
    (free : p.PollFree admitted) (part : Part run f site₀ base p i j r)
    (depth : (run i).scene.fibers.mask f = m) (positive : 0 < m) : Shielded run f m i j := by
  have shielded (k : Nat) (le : i ≤ k) (within : k ≤ j) :
      (run k).state.Shielded admitted f m site₀ base (run k).scene := by
    refine invariant_of_away steps ?_ (fun next away h => h.goesTo closed positive away next) ?_ le
      (fun l le lt => part.away l le (Nat.lt_of_lt_of_le lt within))
      (pending_of_le steps within part.pending)
    · obtain ⟨calls, begins⟩ := part.begins
      subst depth
      rw [begins]
      exact ⟨rfl, ⟨free, .here⟩, ⟨Nat.le_refl _, p.obeys_free, .here⟩, .here, rfl, rfl⟩
    · rintro t sc n ⟨fiber, pollFree, sheltered, climbs, calm, finalizers⟩
      rw [← keeps n sc] at sheltered climbs
      exact ⟨fiber, pollFree, sheltered, climbs, calm, finalizers⟩
  refine ⟨fun k le within => (shielded k le within).sheltered.floor_le, ?_,
    fun k le within => (shielded k le within).calm⟩
  intro k le lt
  exact (shielded k le (Nat.le_of_lt lt)).finds_eq_false positive (part.away k le lt)

/-- What a program comes to that is shielded is not a cancellation. -/
theorem Part.ne_canceled {run : Nat → Course B P ρ} {i j : Nat} {p : Program B P b β}
    {r : Except Interrupted β} (part : Part run f site₀ base p i j r)
    (shielded : Shielded run f m i j) : r ≠ .error .canceled := by
  rintro rfl
  obtain ⟨calls, state⟩ := part.returns
  have calm := shielded.calm j part.le (Nat.le_refl j)
  rw [state] at calm
  cases calm

end Course

end Shielded

end Cancelable
