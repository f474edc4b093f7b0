import Cancelable.Proofs.Looks

/-!
# Cancellation is final

Once a step has found a cancellation the program is doomed: the cancellation is handed from frame to
frame down to the end.  No frame recovers from it or goes on after it; the only programs that are
run on the way are finalizers, and whatever becomes of a finalizer, the cancellation is handed on
after it.  And nothing else makes a cancellation: a program in which none is found does not end
canceled, and a program that comes to no operation, where nothing is looked for, ends with a value.

What a step finds is what it reports (`State.observed_step`).

Main statement: a run ends canceled exactly if it has found a cancellation, from which on nothing
but finalizers is run (`State.canceled_iff_found`).
-/

namespace Cancelable

variable {B : Backend} {P : Procedures} {ρ : Type}

/-! ## Finalizers that are running -/

/-- Whether a frame waits for a finalizer to end. -/
def Frame.awaitsFinalizer {a : Algebra} {α β : Type} : Frame B P a α β → Bool
  | .finalizing _ => true
  | _ => false

theorem Frame.awaitsFinalizer_of_plain {a : Algebra} {α β : Type} {frame : Frame B P a α β}
    (plain : frame.cleansUp = false) : frame.awaitsFinalizer = false := by
  cases frame with
  | finalizing level => cases plain
  | _ => rfl

/-- The number of finalizers that are running, one within another. -/
def Stack.finalizers : {a : Algebra} → {α : Type} → Stack B P a α ρ → Nat
  | _, _, .nil => 0
  | _, _, .cons frame rest => rest.finalizers + frame.awaitsFinalizer.toNat
  | _, _, .embedded _ rest => rest.finalizers

theorem Stack.finalizers_cons_of_plain {a : Algebra} {α β : Type} {frame : Frame B P a α β}
    (plain : frame.cleansUp = false) (rest : Stack B P a β ρ) :
    (Stack.cons frame rest).finalizers = rest.finalizers := by
  rw [Stack.finalizers, Frame.awaitsFinalizer_of_plain plain]
  rfl

/-! ## Doomed programs -/

theorem Control.eq_of_isCanceled {a : Algebra} {α : Type} {c : Control B P a α}
    (canceled : c.isCanceled = true) : c = .give (.error .canceled) := by
  cases c with
  | give r => rw [eq_of_isCancellation canceled]
  | run p => cases canceled
  | block turns code => cases canceled

/-- Whether a program is handing on a cancellation, or runs a finalizer because of one. -/
def State.isDoomed (s : State B P ρ) : Bool :=
  s.control.isCanceled || s.stack.finalizers != 0

/-- A program becomes doomed by finding a cancellation, and stays so. -/
theorem Flows.isDoomed {s s' : State B P ρ} {found : Bool} (flow : Flows s found s') :
    s'.isDoomed = (found || s.isDoomed) := by
  cases flow with
  | stay busy plain other =>
    simp [State.isDoomed, other, Control.isCanceled_of_busy busy]
  | refused => rfl
  | refused_below => rfl
  | refused_outside => rfl
  | push frame plain noFinalizer =>
    simp [State.isDoomed, Control.isCanceled, Stack.finalizers_cons_of_plain plain]
  | pass frame plain same =>
    simp [State.isDoomed, Control.isCanceled, Stack.finalizers_cons_of_plain plain, same]
  | goOn frame plain other =>
    simp [State.isDoomed, Control.isCanceled, Stack.finalizers_cons_of_plain plain, other]
  | guard => simp [State.isDoomed, Control.isCanceled, Stack.finalizers, Frame.awaitsFinalizer]
  | leave other =>
    simp [State.isDoomed, Control.isCanceled, Stack.finalizers, Frame.awaitsFinalizer]
  | finalize =>
    simp [State.isDoomed, Control.isCanceled, Stack.finalizers, Frame.awaitsFinalizer,
      isCancellation]
  | finish =>
    simp [State.isDoomed, Control.isCanceled, Stack.finalizers, Frame.awaitsFinalizer,
      isCancellation]
  | embed noFinalizer => simp [State.isDoomed, Control.isCanceled, Stack.finalizers]
  | unembed => simp [State.isDoomed, Control.isCanceled, Stack.finalizers]

/-! ## Handing on a cancellation -/

/-- What happens to a cancellation in one step, which leaves the world as it is: the next frame
drops what it had still to do and hands the cancellation on, or has its finalizer run, or nothing
remains to be done. -/
inductive Unwinds : State B P ρ → Scene B → Next B P ρ → Prop where
  | drop {a : Algebra} {α β : Type} {f : Fiber} {calls : Nat} {site : Site B a} {sc sc' : Scene B}
      {rest : Stack B P a β ρ} (frame : Frame B P a α β) (idle : sc'.world = sc.world) :
      Unwinds ⟨f, calls, site, .give (.error .canceled), .cons frame rest⟩ sc
        (.more ⟨f, calls, site, .give (.error .canceled), rest⟩ sc')
  | finalize {a : Algebra} {α : Type} {f : Fiber} {calls level : Nat} {site : Site B a}
      {sc sc' : Scene B} {finalizer : Program B P a Unit} {rest : Stack B P a α ρ}
      (idle : sc'.world = sc.world) :
      Unwinds ⟨f, calls, site, .give (.error .canceled), .cons (.onCancel finalizer) rest⟩ sc
        (.more ⟨f, calls, site, .run finalizer, .cons (.finalizing level) rest⟩ sc')
  | unembed {a b : Algebra} {α : Type} {f : Fiber} {calls : Nat} {outside : Site B a}
      {inside : Site B b} {sc sc' : Scene B} {rest : Stack B P a α ρ}
      (idle : sc'.world = sc.world) :
      Unwinds ⟨f, calls, inside, .give (.error .canceled), .embedded outside rest⟩ sc
        (.more ⟨f, calls, outside, .give (.error .canceled), rest⟩ sc')
  | ended {a : Algebra} {f : Fiber} {calls : Nat} {site : Site B a} {sc sc' : Scene B}
      (idle : sc'.world = sc.world) :
      Unwinds (⟨f, calls, site, .give (.error .canceled), .nil⟩ : State B P ρ) sc
        (.ended (.error .canceled) sc')

/-! ## Programs without operations -/

/-- Whether a frame waits for a value to go on with. -/
def Frame.waitsForValue {a : Algebra} {α β : Type} : Frame B P a α β → Bool
  | .map _ | .bind _ => true
  | _ => false

def Stack.waitsForValues : {a : Algebra} → {α : Type} → Stack B P a α ρ → Bool
  | _, _, .nil => true
  | _, _, .cons frame rest => frame.waitsForValue && rest.waitsForValues
  | _, _, .embedded _ _ => false

/-- Whether a program is about to be run, or has come to a value. -/
def Control.isOnCourse {a : Algebra} {α : Type} : Control B P a α → Bool
  | .run _ => true
  | .give (.ok _) => true
  | _ => false

/-- Whether the next step is to run an operation. -/
def Control.isOperation {a : Algebra} {α : Type} : Control B P a α → Bool
  | .run p => p.isOperation
  | _ => false

/-- Whether nothing has been done yet but to pass values on. -/
def State.isOnCourse (s : State B P ρ) : Bool :=
  s.control.isOnCourse && s.stack.waitsForValues

namespace State

variable {bodies : Bodies B P} {rt : Runtime} {a : Algebra} {α β : Type} {f : Fiber} {calls : Nat}
  {site : Site B a} {stack : Stack B P a α ρ} {sc : Scene B} {s : State B P ρ}

theorem resume_unwinds (f : Fiber) (calls : Nat) (site : Site B a) (frame : Frame B P a α β)
    (rest : Stack B P a β ρ) (sc : Scene B) :
    Unwinds ⟨f, calls, site, .give (.error .canceled), .cons frame rest⟩ sc
      (resume f calls site frame (.error .canceled) rest sc) := by
  cases frame with
  | onCancel finalizer => exact .finalize rfl
  | region level =>
    -- the region hands a cancellation on, be it the one it was handed or one that it finds
    unfold resume
    cases found : (sc.setMask f level).fibers.isCanceled f with
    | true =>
      simp only [observing_of_canceled found]
      exact .drop _ rfl
    | false =>
      simp only [observing_of_clear found]
      exact .drop _ rfl
  | _ => exact .drop _ rfl

/-- A cancellation is handed on without carrying out an operation. -/
theorem step_unwinds (canceled : s.control = .give (.error .canceled)) :
    Unwinds s sc (s.step bodies rt sc) ∧ s.executes sc = [] := by
  obtain ⟨f, calls, site, control, stack⟩ := s
  obtain rfl : control = .give (.error .canceled) := canceled
  refine ⟨?_, rfl⟩
  cases stack with
  | nil => exact .ended rfl
  | cons frame rest => exact resume_unwinds f calls site frame rest sc
  | embedded outside rest => exact .unembed rfl

/-- As long as no operation is run, values are passed on. -/
theorem onCourse_step (bodies : Bodies B P) (rt : Runtime) (sc : Scene B)
    (straight : s.isOnCourse = true) (plain : s.control.isOperation = false) :
    (s.step bodies rt sc).GoesOn (fun s' _ => s'.isOnCourse = true) ∨
      ∃ x sc', s.step bodies rt sc = .ended (.ok x) sc' := by
  obtain ⟨f, calls, site, control, stack⟩ := s
  simp only [isOnCourse, Bool.and_eq_true] at straight
  obtain ⟨control_onCourse, values⟩ := straight
  cases control with
  | run p =>
    refine .inl ?_
    cases p with
    | pure x => exact Bool.and_eq_true_iff.mpr ⟨rfl, values⟩
    | build code k =>
      exact goesOn_hosting fun x sc' _ => Bool.and_eq_true_iff.mpr ⟨rfl, values⟩
    | call procedure => exact Bool.and_eq_true_iff.mpr ⟨rfl, values⟩
    | map p g => exact Bool.and_eq_true_iff.mpr ⟨rfl, values⟩
    | bind p k => exact Bool.and_eq_true_iff.mpr ⟨rfl, values⟩
    | _ => cases plain
  | give r =>
    rcases r with i | x
    · cases control_onCourse
    · cases stack with
      | nil => exact .inr ⟨x, _, rfl⟩
      | embedded outside rest => cases values
      | cons frame rest =>
        obtain ⟨waits, values⟩ := Bool.and_eq_true_iff.mp values
        refine .inl ?_
        cases frame with
        | map g => exact goesOn_hosting fun y sc' _ => Bool.and_eq_true_iff.mpr ⟨rfl, values⟩
        | bind k => exact Bool.and_eq_true_iff.mpr ⟨rfl, values⟩
        | _ => cases waits
  | block turns code => cases control_onCourse

/-! ## The run -/

/-- What a run notes of a step: whether it was to run an operation, and whether it found a
cancellation. -/
structure Look where
  operation : Bool
  found : Bool

/-- What is noted of the step from a state. -/
def look (s : State B P ρ) (sc : Scene B) (_ : State B P ρ) : List Look :=
  [⟨s.control.isOperation, s.finds sc⟩]

variable {handle : B.Handle a} {p : Program B P a ρ} {fs : Fibers} {sc₀ : Scene B} {log : List Look}

/-- A program is doomed exactly if it has found a cancellation. -/
theorem Logs.isDoomed_eq (run : Logs bodies rt look (start f handle p fs) sc₀ log s sc) :
    s.isDoomed = log.any Look.found := by
  refine run.invariant (I := fun log s => s.isDoomed = log.any Look.found) rfl ?_
  intro log t t' sc sc' next doomed
  calc
    t'.isDoomed = (t.finds sc || t.isDoomed) := (flows_of_goesTo next).isDoomed
    _ = (log ++ look t sc t').any Look.found := by simp [look, doomed, Bool.or_comm]

theorem Logs.isOnCourse (run : Logs bodies rt look (start f handle p fs) sc₀ log s sc)
    (plain : ∀ l ∈ log, l.operation = false) : s.isOnCourse = true := by
  refine run.invariant (I := fun log s => (∀ l ∈ log, l.operation = false) → s.isOnCourse = true)
    (fun _ => rfl) ?_ plain
  intro log t t' sc sc' next ih plain
  have straight : t.isOnCourse = true :=
    ih fun l earlier => plain l (List.mem_append_left _ earlier)
  have last : t.control.isOperation = false :=
    plain ⟨t.control.isOperation, t.finds sc⟩ (by simp [look])
  rcases onCourse_step bodies rt sc straight last with onCourse | ⟨x, sc'', ended⟩
  · exact onCourse.at next
  · rcases next with next | next <;> cases ended.symm.trans next

/-- Consider a run of a program from its start, among others that do what they like.  It ends
canceled exactly if one of its steps has found the request at the mask depth zero.  From then on
either a finalizer is running, or the cancellation is handed on, past every frame but those that
have a finalizer, and nothing is carried out.  If the run has come to no operation so far, its end
is a value. -/
theorem canceled_iff_found (run : Logs bodies rt look (start f handle p fs) sc₀ log s sc) :
    (∀ r sc', s.step bodies rt sc = .ended r sc' →
      (r = .error .canceled ↔ ∃ l ∈ log, l.found = true)) ∧
    ((∃ l ∈ log, l.found = true) →
      0 < s.stack.finalizers ∨ Unwinds s sc (s.step bodies rt sc) ∧ s.executes sc = []) ∧
    ((∀ l ∈ log, l.operation = false) →
      ∀ r sc', s.step bodies rt sc = .ended r sc' → ∃ x, r = .ok x) := by
  have doomed : s.isDoomed = true ↔ ∃ l ∈ log, l.found = true := by
    rw [run.isDoomed_eq, List.any_eq_true]
  refine ⟨?_, ?_, ?_⟩
  · intro r sc' ended
    obtain ⟨b, f, calls, site, rfl, -⟩ := eq_of_ended ended
    rw [← doomed]
    rcases r with (failure | _) | x
    all_goals simp [isDoomed, Control.isCanceled, isCancellation, Stack.finalizers]
  · intro found
    have doomed : s.isDoomed = true := doomed.mpr found
    rcases Nat.eq_zero_or_pos s.stack.finalizers with none | some
    · have canceled : s.control.isCanceled = true := by
        simpa [isDoomed, none] using doomed
      exact .inr (step_unwinds (Control.eq_of_isCanceled canceled))
    · exact .inl some
  · intro plain r sc' ended
    have straight : s.isOnCourse = true := run.isOnCourse plain
    obtain ⟨b, f, calls, site, rfl, -⟩ := eq_of_ended ended
    rcases r with i | x
    · cases straight
    · exact ⟨x, rfl⟩

/-- A cancellation inside a recovery is handed on past the handler and past the program that was to
follow, and only its finalizer is run.  A program that adds numbers ends with a value, although the
cancellation of its fiber has been requested. -/
theorem canceled_past_handler :
    let f : Fiber := ⟨.numbered 0, .numbered 0⟩
    let recovering : Program .notes .none .connection Unit :=
      .handleError (.bind (.onCancel .canceled (.note 1)) fun _ => .note 2) fun _ => .note 3
    let adding : Program .notes .none .connection Nat := .bind (.pure 1) fun n => .pure (n + 1)
    let sc₀ : Scene .notes := .blank {}
    let requested : Scene .notes := .blank (({} : Fibers).cancel f)
    (∃ log s sc, Logs Bodies.none .inline look (start f () recovering sc₀.fibers) sc₀ log s sc ∧
      (∃ l ∈ log, l.found = true) ∧ Unwinds s sc (s.step Bodies.none .inline sc) ∧
        sc.world = [1]) ∧
    ∃ log s sc r sc',
      Logs Bodies.none .inline look (start f () adding requested.fibers) requested log s sc ∧
        s.step Bodies.none .inline sc = .ended r sc' ∧ ∃ x, r = .ok x := by
  intro f recovering adding sc₀ requested
  constructor
  · have first : Logs Bodies.none .inline look (start f () recovering sc₀.fibers) sc₀ [] _ _ :=
      .begun
    have run := first.after 9
    obtain ⟨ends, unwinds, -⟩ := canceled_iff_found run
    have found := (ends (.error .canceled) _ rfl).mp rfl
    have handedOn := (unwinds found).resolve_left (Nat.lt_irrefl 0)
    exact ⟨_, _, _, run, found, handedOn.1, rfl⟩
  · have first : Logs Bodies.none .inline look (start f () adding requested.fibers) requested
        [] _ _ := .begun
    have run := first.after 4
    obtain ⟨-, -, succeeds⟩ := canceled_iff_found run
    exact ⟨_, _, _, _, _, run, rfl, succeeds (by decide) _ _ rfl⟩

end State
end Cancelable
