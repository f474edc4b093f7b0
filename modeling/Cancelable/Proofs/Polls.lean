import Cancelable.Proofs.Course
import Cancelable.Proofs.Member

/-!
# Polls

A machine polls a program: the program takes steps until it is over or has to wait, and if it has to
wait it is polled again.  A run that nobody else disturbs in between is its course cut into polls at
the waits, so the number of waits is the number of the poll in which the run is over.

Main statements: all polls before that one are pending, and that one brings the end of the course
(`Machine.poll_of_course`); with some bound a machine comes to an end exactly if the course does
(`Machine.run_iff_course`), and with every larger bound to the same (`Machine.run_of_course`).
-/

namespace Cancelable

variable {B : Backend} {P : Procedures} {ρ : Type}

/-! ## Turns by number -/

namespace Turn

variable {S : Type 1} (turn : S → Scene B → Turn S ρ × Scene B)

/-- The next turn, if the last one has left something pending. -/
def again : Turn S ρ × Scene B → Turn S ρ × Scene B
  | (.pending s, sc) => turn s sc
  | t => t

/-- What has come of it after so many more turns. -/
def nth (first : Turn S ρ × Scene B) : Nat → Turn S ρ × Scene B
  | 0 => first
  | n + 1 => again turn (nth first n)

variable {turn}

theorem nth_again (first : Turn S ρ × Scene B) (n : Nat) :
    nth turn (again turn first) n = nth turn first (n + 1) := by
  induction n with
  | zero => rfl
  | succ n ih => exact congrArg (again turn) ih

theorem again_of_over {t : Turn S ρ × Scene B} (finished : t.1.ending?.isSome = true) :
    again turn t = t := by
  obtain ⟨t, sc⟩ := t
  cases t with
  | pending s => cases finished
  | _ => rfl

/-- Nothing is given a turn any more once it is over. -/
theorem nth_of_over {first : Turn S ρ × Scene B} {m n : Nat} (le : m ≤ n)
    (finished : (nth turn first m).1.ending?.isSome = true) :
    nth turn first n = nth turn first m := by
  induction le with
  | refl => rfl
  | step _ ih =>
    rw [nth, ih]
    exact again_of_over finished

/-- Finishing gives the last turn that the bound allows. -/
theorem finish_eq_nth (first : Turn S ρ × Scene B) (bound : Nat) :
    finish turn bound first =
      ((nth turn first bound).1.ending?.getD .exhausted, (nth turn first bound).2) := by
  induction bound generalizing first with
  | zero => rfl
  | succ bound ih =>
    rw [← nth_again, ← ih]
    obtain ⟨t, sc⟩ := first
    cases t with
    | pending s => rfl
    | _ => cases bound <;> rfl

end Turn

/-! ## Polls of a run -/

/-- Report the end of a program that has an outcome. -/
def Ending.report (a : Algebra) (sc : Scene B) : Ending ρ → Scene B
  | .outcome o => sc.emit (.ended a (o.toExcept.map fun _ => ())) []
  | _ => sc

/-- Others that leave the scene as it is. -/
def Scene.undisturbed : Nat → Scene B → Scene B :=
  fun _ sc => sc

/-- The course of a program from its start, in the scene in which it is started. -/
def Machine.course {a : Algebra} (m : Machine B P) (f : Fiber) (handle : B.Handle a)
    (p : Program B P a ρ) (sc : Scene B) : Nat → Course B P ρ :=
  Cancelable.course m.bodies m.runtime Scene.undisturbed (.start f handle p sc.fibers) sc

/-- A poll of a program, by its number.  The first one has the number zero. -/
def Machine.poll {a : Algebra} (m : Machine B P) (f : Fiber) (handle : B.Handle a)
    (p : Program B P a ρ) (sc : Scene B) : Nat → Turn (Run B P a ρ) ρ × Scene B :=
  Turn.nth (Run.turn m) ((Run.start f handle p sc.fibers).turn m sc)

namespace Machine

variable {a : Algebra} {m : Machine B P} {f : Fiber} {handle : B.Handle a} {p : Program B P a ρ}
  {sc : Scene B} {e : Ending ρ}

/-- What has been polled when a run has come to a point: the polls before every wait are pending,
and the poll since the last one goes on from the point with some number of steps left, or has
brought the end. -/
structure Reaches (m : Machine B P) (f : Fiber) (handle : B.Handle a) (p : Program B P a ρ)
    (sc : Scene B) (left : Nat) (c : Course B P ρ) : Prop where
  pending : ∀ k, k < c.waits → ∃ r sc', m.poll f handle p sc k = (.pending r, sc')
  goesOn : c.ending? = none → ∃ fuel, left ≤ fuel ∧
    m.poll f handle p sc c.waits =
      (⟨c.state⟩ : Run B P a ρ).turn ⟨m.bodies, m.runtime, fuel⟩ c.scene
  finished : ∀ e, c.ending? = some e → ∃ t : Turn (Run B P a ρ) ρ, t.ending? = some e ∧
    m.poll f handle p sc c.waits = (t, e.report a c.scene)

theorem Reaches.next {left : Nat} {c : Course B P ρ} (h : m.Reaches f handle p sc (left + 1) c)
    (bounded : left ≤ m.bound) :
    m.Reaches f handle p sc left (c.next m.bodies m.runtime Scene.undisturbed) := by
  obtain ⟨s, sc₁, log, waits, ending⟩ := c
  cases ending with
  | some e => exact ⟨h.pending, nofun, h.finished⟩
  | none =>
    obtain ⟨fuel, le, here⟩ := h.goesOn rfl
    obtain ⟨fuel, rfl⟩ : ∃ n, fuel = n + 1 := ⟨fuel - 1, by omega⟩
    have le : left ≤ fuel := Nat.le_of_succ_le_succ le
    -- the poll since the last wait begins with this step
    rw [Run.turn_succ] at here
    show m.Reaches f handle p sc left ((Course.note _).follow _ (s.step m.bodies m.runtime sc₁))
    dsimp only at here
    cases e : s.step m.bodies m.runtime sc₁ with
    | more s₂ sc₂ =>
      rw [e] at here
      exact ⟨h.pending, fun _ => ⟨fuel, le, here⟩, nofun⟩
    | waiting s₂ sc₂ =>
      rw [e] at here
      refine ⟨?_, fun _ => ⟨m.bound, bounded, congrArg (Turn.again _) here⟩, nofun⟩
      intro k lt
      rcases Nat.lt_succ_iff_lt_or_eq.mp lt with lt | rfl
      · exact h.pending k lt
      · exact ⟨_, _, here⟩
    | ended r sc₂ =>
      rw [e] at here
      refine ⟨h.pending, nofun, ?_⟩
      rintro _ ⟨⟩
      refine ⟨.ended r, rfl, here.trans ?_⟩
      simp only [Ending.report, Outcome.toExcept_ofExcept]
      rfl
    | panicked panic sc₂ =>
      rw [e] at here
      refine ⟨h.pending, nofun, ?_⟩
      rintro _ ⟨⟩
      exact ⟨.panicked panic, rfl, here⟩

/-- As long as the machine has steps left, its polls reach the points of the course. -/
theorem reaches_course {n : Nat} (le : n ≤ m.bound) :
    m.Reaches f handle p sc (m.bound - n) (m.course f handle p sc n) := by
  induction n with
  | zero => exact ⟨nofun, fun _ => ⟨m.bound, Nat.le_refl _, rfl⟩, nofun⟩
  | succ n ih =>
    have h := ih (Nat.le_of_succ_le le)
    rw [show m.bound - n = m.bound - (n + 1) + 1 by omega] at h
    exact h.next (Nat.sub_le ..)

/-- A course that is over after so many waits is over in the poll of that number, and all polls
before are pending. -/
theorem poll_of_course {n : Nat} (le : n ≤ m.bound)
    (finished : (m.course f handle p sc n).ending? = some e) :
    (∀ k, k < (m.course f handle p sc n).waits →
      ∃ r sc', m.poll f handle p sc k = (.pending r, sc')) ∧
    ∃ t : Turn (Run B P a ρ) ρ, t.ending? = some e ∧
      m.poll f handle p sc (m.course f handle p sc n).waits =
        (t, e.report a (m.course f handle p sc n).scene) :=
  ⟨(reaches_course le).pending, (reaches_course le).finished e finished⟩

end Machine

theorem Course.waits_le (bodies : Bodies B P) (rt : Runtime) (others : Nat → Scene B → Scene B)
    (s : State B P ρ) (sc : Scene B) (n : Nat) : (course bodies rt others s sc n).waits ≤ n := by
  induction n with
  | zero => exact Nat.le_refl 0
  | succ n ih =>
    rw [course]
    generalize course bodies rt others s sc n = c at ih
    obtain ⟨s, sc, log, waits, ending⟩ := c
    cases ending with
    | some e => exact Nat.le_succ_of_le ih
    | none =>
      show (follow others (note _) (s.step bodies rt sc)).waits ≤ n + 1
      cases s.step bodies rt sc with
      | waiting s' sc' => exact Nat.succ_le_succ ih
      | _ => exact Nat.le_succ_of_le ih

namespace Machine

variable {a : Algebra} {m : Machine B P} {f : Fiber} {handle : B.Handle a} {p : Program B P a ρ}
  {sc : Scene B} {e : Ending ρ}

/-- Running gives the last poll that the bound allows. -/
theorem run_eq_poll : m.run f handle p sc =
    ((m.poll f handle p sc m.bound).1.ending?.getD .exhausted, (m.poll f handle p sc m.bound).2) :=
  Turn.finish_eq_nth _ m.bound

/-- A machine with enough bound comes to the end of the course. -/
theorem run_of_course {n : Nat} (le : n ≤ m.bound)
    (finished : (m.course f handle p sc n).ending? = some e) :
    m.run f handle p sc = (e, e.report a (m.course f handle p sc n).scene) := by
  obtain ⟨-, t, ended, poll⟩ := poll_of_course le finished
  have waits : (m.course f handle p sc n).waits ≤ m.bound :=
    Nat.le_trans (Course.waits_le ..) le
  have isOver : (m.poll f handle p sc (m.course f handle p sc n).waits).1.ending?.isSome := by
    rw [poll, ended]
    rfl
  have last : m.poll f handle p sc m.bound = (t, e.report a (m.course f handle p sc n).scene) :=
    (Turn.nth_of_over waits isOver).trans poll
  rw [run_eq_poll, last, ended]
  rfl

/-- What a turn has left pending is a point of the course, and what it has ended with is the end of
the course, unless its bound is used up. -/
structure Arrives (m : Machine B P) (f : Fiber) (handle : B.Handle a) (p : Program B P a ρ)
    (sc : Scene B) (t : Turn (Run B P a ρ) ρ × Scene B) : Prop where
  pending : ∀ r, t.1 = .pending r → ∃ n, (m.course f handle p sc n).ending? = none ∧
    (m.course f handle p sc n).state = r.state ∧ (m.course f handle p sc n).scene = t.2
  finished : ∀ e, t.1.ending? = some e → e ≠ .exhausted → ∃ n,
    (m.course f handle p sc n).ending? = some e ∧ t.2 = e.report a (m.course f handle p sc n).scene

/-- A turn that begins at a point of the course arrives at another one. -/
theorem arrives_of_turn (fuel : Nat) {n : Nat} {s : State B P ρ} {sc₁ : Scene B}
    (going : (m.course f handle p sc n).ending? = none)
    (state : (m.course f handle p sc n).state = s)
    (scene : (m.course f handle p sc n).scene = sc₁) :
    m.Arrives f handle p sc ((⟨s⟩ : Run B P a ρ).turn ⟨m.bodies, m.runtime, fuel⟩ sc₁) := by
  induction fuel generalizing n s sc₁ with
  | zero =>
    refine ⟨fun r pending => (by cases pending), ?_⟩
    rintro _ ⟨⟩ notAll
    exact absurd rfl notAll
  | succ fuel ih =>
    have next : m.course f handle p sc (n + 1) =
        (m.course f handle p sc n).note.follow Scene.undisturbed
          (s.step m.bodies m.runtime sc₁) := by
      rw [← state, ← scene]
      exact Course.next_of_pending going
    rw [Run.turn_succ]
    cases e : s.step m.bodies m.runtime sc₁ with
    | more s₂ sc₂ =>
      rw [e] at next
      exact ih (by rw [next]; exact going) (by rw [next]; rfl) (by rw [next]; rfl)
    | waiting s₂ sc₂ =>
      rw [e] at next
      refine ⟨?_, nofun⟩
      rintro _ ⟨⟩
      exact ⟨n + 1, by rw [next]; exact going, by rw [next]; rfl, by rw [next]; rfl⟩
    | ended r sc₂ =>
      rw [e] at next
      refine ⟨fun r pending => (by cases pending), ?_⟩
      rintro _ ⟨⟩ -
      refine ⟨n + 1, by rw [next]; rfl, ?_⟩
      simp only [next, Course.follow, Ending.report, Outcome.toExcept_ofExcept]
    | panicked panic sc₂ =>
      rw [e] at next
      refine ⟨fun r pending => (by cases pending), ?_⟩
      rintro _ ⟨⟩ -
      exact ⟨n + 1, by rw [next]; rfl, by rw [next]; rfl⟩

theorem arrives_poll (n : Nat) : m.Arrives f handle p sc (m.poll f handle p sc n) := by
  induction n with
  | zero => exact arrives_of_turn m.bound (n := 0) rfl rfl rfl
  | succ n ih =>
    show m.Arrives f handle p sc (Turn.again (Run.turn m) (m.poll f handle p sc n))
    revert ih
    obtain ⟨t, sc₁⟩ := m.poll f handle p sc n
    intro ih
    cases t with
    | pending r =>
      obtain ⟨k, going, state, scene⟩ := ih.pending r rfl
      exact arrives_of_turn m.bound going state scene
    | _ => exact ih

/-- A machine comes to no other end than that of the course. -/
theorem course_of_run {sc' : Scene B} (run : m.run f handle p sc = (e, sc'))
    (notAll : e ≠ .exhausted) :
    ∃ n, (m.course f handle p sc n).ending? = some e ∧
      sc' = e.report a (m.course f handle p sc n).scene := by
  rw [run_eq_poll] at run
  cases run
  have last : m.Arrives f handle p sc (m.poll f handle p sc m.bound) := arrives_poll m.bound
  cases ended : (m.poll f handle p sc m.bound).1.ending? with
  | none =>
    rw [ended] at notAll
    exact absurd rfl notAll
  | some e =>
    rw [ended] at notAll
    exact last.finished e ended notAll

/-- With some bound a machine comes to an end, and leaves a scene, exactly if the course does. -/
theorem run_iff_course {bodies : Bodies B P} {rt : Runtime} {sc' : Scene B}
    (known : e ≠ .exhausted) :
    (∃ bound, (⟨bodies, rt, bound⟩ : Machine B P).run f handle p sc = (e, sc')) ↔
      ∃ n c, Cancelable.course bodies rt Scene.undisturbed (.start f handle p sc.fibers) sc n = c ∧
        c.ending? = some e ∧ sc' = e.report a c.scene := by
  constructor
  · rintro ⟨bound, ends⟩
    obtain ⟨n, ended⟩ := course_of_run ends known
    exact ⟨n, _, rfl, ended⟩
  · rintro ⟨n, c, rfl, ended, rfl⟩
    exact ⟨n, run_of_course (m := ⟨bodies, rt, n⟩) (Nat.le_refl n) ended⟩

end Machine
end Cancelable
