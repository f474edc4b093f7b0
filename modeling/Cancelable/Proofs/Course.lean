import Cancelable.Machine.Turn
import Cancelable.Proofs.Finality

/-!
# Courses

The course of a run, step by step: the point it has come to, what it has carried out so far, how
often it has waited, and how it has ended, if it has.  Whenever the run waits, others may change the
scene.  What they do is given from the start and may be different each time, so the course of a run
is a function of it, and two runs can be compared while others do the same to both.

Main statement: what holds at the start, and is kept by every step and by the others, holds until
the run is over (`Course.invariant`).
-/

namespace Cancelable

variable {B : Backend} {P : Procedures} {ρ : Type}

/-! ## What is carried out -/

/-- An operation that was carried out, and whether a finalizer was running then. -/
structure Done (B : Backend) (P : Procedures) : Type 1 where
  executed : Executed B P
  inFinalizer : Bool

/-- What the next step carries out. -/
def State.does (s : State B P ρ) (sc : Scene B) : List (Done B P) :=
  (s.executes sc).map fun executed => ⟨executed, s.stack.finalizers != 0⟩

/-! ## Courses -/

/-- How far a run has come. -/
structure Course (B : Backend) (P : Procedures) (ρ : Type) : Type 1 where
  state : State B P ρ
  scene : Scene B
  log : List (Done B P) := []
  /-- How often it has left off until the next turn. -/
  waits : Nat := 0
  ending? : Option (Ending ρ) := none

namespace Course

/-- What was carried out. -/
def operations (c : Course B P ρ) : List (Executed B P) :=
  c.log.map Done.executed

/-- What was carried out while no finalizer was running. -/
def outside (c : Course B P ρ) : List (Executed B P) :=
  (c.log.filter fun done => !done.inFinalizer).map Done.executed

/-- Write down what the next step carries out. -/
def note (c : Course B P ρ) : Course B P ρ :=
  { c with log := c.log ++ c.state.does c.scene }

section Next

variable (bodies : Bodies B P) (rt : Runtime) (others : Nat → Scene B → Scene B)

/-- Go on to what a step has led to.  Before the next turn others do what they do. -/
def follow (c : Course B P ρ) : Next B P ρ → Course B P ρ
  | .more s sc => { c with state := s, scene := sc }
  | .waiting s sc =>
    { c with state := s, scene := others (c.waits + 1) sc, waits := c.waits + 1 }
  | .ended r sc => { c with scene := sc, ending? := some (.outcome (.ofExcept r)) }
  | .panicked panic sc => { c with scene := sc, ending? := some (.panicked panic) }

/-- Take a step, if the run is not over. -/
def next : Course B P ρ → Course B P ρ
  | ⟨s, sc, log, waits, none⟩ =>
    (note ⟨s, sc, log, waits, none⟩).follow others (s.step bodies rt sc)
  | c => c

end Next

end Course

/-- The course of a run from a state and a scene on, after a number of steps. -/
def course (bodies : Bodies B P) (rt : Runtime) (others : Nat → Scene B → Scene B)
    (s : State B P ρ) (sc : Scene B) : Nat → Course B P ρ
  | 0 => { state := s, scene := sc }
  | n + 1 => (course bodies rt others s sc n).next bodies rt others

namespace Course

variable {bodies : Bodies B P} {rt : Runtime} {others : Nat → Scene B → Scene B}
  {c : Course B P ρ} {s : State B P ρ} {sc : Scene B} {ending : Ending ρ}

/-! ## The next step -/

theorem next_of_over (ended : c.ending? = some ending) : c.next bodies rt others = c := by
  obtain ⟨s, sc, log, waits, pending⟩ := c
  cases ended
  rfl

theorem next_of_pending (pending : c.ending? = none) :
    c.next bodies rt others = c.note.follow others (c.state.step bodies rt c.scene) := by
  obtain ⟨s, sc, log, waits, ended⟩ := c
  cases pending
  rfl

theorem pending_of_next (pending : (c.next bodies rt others).ending? = none) :
    c.ending? = none := by
  cases ended : c.ending? with
  | none => rfl
  | some ending =>
    rw [next_of_over ended, ended] at pending
    cases pending

/-- A step after which the run is not over leads to the point that is reached, perhaps after others
have changed the scene. -/
theorem goesTo_of_next (pending : (c.next bodies rt others).ending? = none) :
    ∃ sc', (c.state.step bodies rt c.scene).GoesTo (c.next bodies rt others).state sc' ∧
      ((c.next bodies rt others).scene = sc' ∨
        ∃ n, (c.next bodies rt others).scene = others n sc') := by
  have before := pending_of_next pending
  rw [next_of_pending before] at pending ⊢
  cases e : c.state.step bodies rt c.scene with
  | more s sc => exact ⟨sc, .inl rfl, .inl rfl⟩
  | waiting s sc => exact ⟨sc, .inr rfl, .inr ⟨_, rfl⟩⟩
  | ended r sc => rw [e] at pending; cases pending
  | panicked panic sc => rw [e] at pending; cases pending

theorem operations_note (c : Course B P ρ) :
    c.note.operations = c.operations ++ c.state.executes c.scene := by
  have carried : (c.state.does c.scene).map Done.executed = c.state.executes c.scene :=
    (List.map_map ..).trans (List.map_id _)
  rw [operations, note, List.map_append, carried, operations]

theorem operations_follow (c : Course B P ρ) (n : Next B P ρ) :
    (c.follow others n).operations = c.operations := by
  cases n <;> rfl

theorem outside_note (c : Course B P ρ) :
    c.note.outside =
      c.outside ++ ((c.state.does c.scene).filter fun done => !done.inFinalizer).map
        Done.executed := by
  simp [outside, note]

theorem outside_follow (c : Course B P ρ) (n : Next B P ρ) :
    (c.follow others n).outside = c.outside := by
  cases n <;> rfl

/-- What was carried out is not taken back. -/
theorem outside_next (c : Course B P ρ) : c.outside <+: (c.next bodies rt others).outside := by
  cases ended : c.ending? with
  | some ending =>
    have same : (c.next bodies rt others).outside = c.outside := congrArg _ (next_of_over ended)
    exact same ▸ List.prefix_refl _
  | none =>
    rw [next_of_pending ended, outside_follow, outside_note]
    exact List.prefix_append _ _

/-! ## Many steps -/

/-- What holds at the start, and is kept by every step and by what others do, holds as long as the
run is not over. -/
theorem invariant {I : State B P ρ → Scene B → Prop} (start : I s sc)
    (keep : ∀ {t t' : State B P ρ} {sc sc' : Scene B},
      (t.step bodies rt sc).GoesTo t' sc' → I t sc → I t' sc')
    (spared : ∀ {t : State B P ρ} {sc : Scene B} (n : Nat), I t sc → I t (others n sc)) (n : Nat)
    (pending : (course bodies rt others s sc n).ending? = none) :
    I (course bodies rt others s sc n).state (course bodies rt others s sc n).scene := by
  induction n with
  | zero => exact start
  | succ n ih =>
    obtain ⟨sc', goes, scene⟩ := goesTo_of_next pending
    have next := keep goes (ih (pending_of_next pending))
    rcases scene with same | ⟨n, changed⟩
    · rw [course, same]
      exact next
    · rw [course, changed]
      exact spared n next

theorem outside_course_mono {m n : Nat} (le : m ≤ n) :
    (course bodies rt others s sc m).outside <+: (course bodies rt others s sc n).outside := by
  induction le with
  | refl => exact List.prefix_refl _
  | step _ ih => exact ih.trans (outside_next _)

/-- A run that is over has come to its last point. -/
theorem course_of_over {m n : Nat} (le : m ≤ n)
    (ended : (course bodies rt others s sc m).ending? = some ending) :
    course bodies rt others s sc n = course bodies rt others s sc m := by
  induction le with
  | refl => rfl
  | step _ ih =>
    rw [course, ih]
    exact next_of_over ended

end Course
end Cancelable
