import Cancelable.Proofs.Blocking
import Cancelable.Proofs.Polls

/-!
# Suspension points

Where a runtime makes a blocking call wait, the program leaves off and is polled again later.  If
nobody does anything in between, this cannot be seen: the run goes through the same points as on the
runtime that makes blocking calls at once, only that it stays at some of them for a while.

The one run is mapped to the other by forgetting how long the call that was begun has to wait still
(`State.eager`).  A turn that is over changes nothing but that, and every other step is mapped to a
step.  This does not depend on what is on the stack, so it holds inside regions, polls, finalizers
and embedded programs alike.

Main statement: a run goes through the points of the eager one, makes each blocking call that it has
begun once, in the same scene, and is over in the poll that the waits of its calls add up to
(`Course.suspension_invisible`).
-/

namespace Cancelable

variable {B : Backend} {P : Procedures} {ρ : Type}

/-! ## Forgetting the waits -/

/-- What is done next when a call that was begun has to wait no longer. -/
def Control.eager {a : Algebra} {α : Type} : Control B P a α → Control B P a α
  | .block _ code => .block 0 code
  | c => c

def State.eager (s : State B P ρ) : State B P ρ :=
  { s with control := s.control.eager }

def Next.eager : Next B P ρ → Next B P ρ
  | .more s sc => .more s.eager sc
  | .waiting s sc => .waiting s.eager sc
  | .ended r sc => .ended r sc
  | .panicked panic sc => .panicked panic sc

/-- The point of the run that corresponds to it when no call has to wait. -/
def Course.eager (c : Course B P ρ) : Course B P ρ :=
  { c with state := c.state.eager, waits := 0 }

namespace State

theorem eager_of_delay {s : State B P ρ} (ready : s.control.delay = 0) : s.eager = s := by
  obtain ⟨f, calls, site, control, stack⟩ := s
  cases control with
  | block turns code =>
    cases ready
    rfl
  | _ => rfl

end State

theorem Next.eager_of_atOnce {calls : Nat} {next : Next B P ρ}
    (idle : next.AtOnce (State.Idle calls)) : next.eager = next := by
  cases next with
  | more s sc => exact congrArg (Next.more · sc) (State.eager_of_delay (State.delay_of_idle idle.1))
  | waiting s sc => exact idle.elim
  | _ => rfl

/-! ## One step -/

namespace State

variable (bodies : Bodies B P) (rt : Runtime)

section Run

variable {a : Algebra} {α : Type}

/-- To a program that is no blocking call the runtime does not matter. -/
theorem run_eq_of_inline (f : Fiber) (calls : Nat) (site : Site B a) {p : Program B P a α}
    (stack : Stack B P a α ρ) (sc : Scene B) (inline : p.isBlocking = false) :
    run bodies rt f calls site p stack sc = run bodies .inline f calls site p stack sc := by
  cases p with
  | op o => cases inline
  | raw code => cases inline
  | suspend hint code =>
    simp only [run, show hint.isBlocking = false from inline, Bool.false_eq_true, if_false]
  | _ => rfl

theorem eager_run (f : Fiber) (calls : Nat) (site : Site B a) (p : Program B P a α)
    (stack : Stack B P a α ρ) (sc : Scene B) :
    (run bodies rt f calls site p stack sc).eager = run bodies .inline f calls site p stack sc := by
  cases blocking : p.isBlocking with
  | false =>
    rw [run_eq_of_inline bodies rt f calls site stack sc blocking]
    exact Next.eager_of_atOnce (run_atOnce bodies .inline f calls site stack sc blocking)
  | true =>
    cases canceled : sc.fibers.isCanceled f with
    | false =>
      obtain ⟨code, sc', -, begun⟩ := run_of_blocking bodies f calls site stack blocking canceled
      rw [begun rt, begun .inline]
      rfl
    | true =>
      have operation : p.isOperation = true :=
        Program.isOperation_of_isLeaf (Program.isLeaf_of_isBlocking blocking)
      rw [run_of_canceled operation canceled, run_of_canceled operation canceled]
      rfl

end Run

/-- Where no call has to wait, a step is that of the eager run, but for the wait of the call that it
begins. -/
theorem eager_step {s : State B P ρ} {sc : Scene B} (ready : s.control.delay = 0) :
    (s.step bodies rt sc).eager = s.step bodies .inline sc := by
  obtain ⟨f, calls, site, control, stack⟩ := s
  cases control with
  | run p => exact eager_run bodies rt f calls site p stack sc
  | give r =>
    cases stack with
    | nil => rfl
    | cons frame rest => exact Next.eager_of_atOnce (resume_atOnce f calls site frame r rest sc)
    | embedded outside rest => rfl
  | block turns code =>
    cases ready
    exact Next.eager_of_atOnce (calling_atOnce f calls site code stack sc)

/-- A call that has to wait still keeps the run where it is for a turn. -/
theorem step_of_delay {s : State B P ρ} (sc : Scene B) {turns : Nat}
    (late : s.control.delay = turns + 1) :
    ∃ s', s.step bodies rt sc = .waiting s' sc ∧ s'.eager = s.eager ∧ s'.control.delay = turns ∧
      s.executes sc = [] ∧ s.makes sc = [] := by
  obtain ⟨f, calls, site, control, stack⟩ := s
  cases control with
  | run p => cases late
  | give r => cases late
  | block n code =>
    cases late
    exact ⟨_, rfl, rfl, rfl, rfl, rfl⟩

theorem not_waiting {s s' : State B P ρ} {sc sc' : Scene B} (ready : s.control.delay = 0) :
    s.step bodies rt sc ≠ .waiting s' sc' := by
  intro waiting
  cases blocks_step bodies rt s sc with
  | begins p code sc' reached blocking coded executed next => cases next.symm.trans waiting
  | waits turns code awaited next =>
    rw [awaited] at ready
    cases ready
  | makes code awaited next =>
    have atOnce := calling_atOnce s.fiber s.calls s.site code s.stack sc
    rw [← next, waiting] at atOnce
    exact atOnce
  | passes idle executed next =>
    rw [waiting] at next
    exact next

end State

/-! ## Calls along a run -/

namespace Course

/-- The call that is made in the next step, if the run is not over. -/
def makes (c : Course B P ρ) : List (Call B) :=
  if c.ending?.isNone then c.state.makes c.scene else []

/-- The code of the call that was begun and is to be made still.  When the run is over, none is. -/
def awaited (c : Course B P ρ) : List (Code B) :=
  if c.ending?.isNone then c.state.control.awaited else []

/-- How often the run has to leave off still before the call that was begun is made. -/
def delay (c : Course B P ρ) : Nat :=
  if c.ending?.isNone then c.state.control.delay else 0

/-- The codes of the blocking operations that were carried out. -/
def begun (c : Course B P ρ) : List (Code B) :=
  c.operations.filterMap Executed.blockingCode?

/-- The blocking calls that a run has made in its first steps. -/
def callsBefore (run : Nat → Course B P ρ) (n : Nat) : List (Call B) :=
  (List.range n).flatMap fun k => (run k).makes

theorem callsBefore_succ (run : Nat → Course B P ρ) (n : Nat) :
    callsBefore run (n + 1) = callsBefore run n ++ (run n).makes := by
  simp [callsBefore, List.range_succ]

/-- Every blocking operation is known by its code. -/
theorem length_begun (c : Course B P ρ) :
    c.begun.length = c.operations.countP fun e => e.operation.isBlocking := by
  have coded (e : Executed B P) : e.blockingCode?.isSome = e.operation.isBlocking := by
    obtain ⟨handle, p⟩ := e
    unfold Executed.blockingCode?
    cases blocking : p.isBlocking with
    | false => rfl
    | true =>
      cases p with
      | op | raw | suspend => rfl
      | _ => cases blocking
  rw [begun, List.length_filterMap_eq_countP]
  exact List.countP_congr fun e _ => by rw [coded]

section Over

variable {c : Course B P ρ} {e : Ending ρ}

theorem makes_of_over (finished : c.ending? = some e) : c.makes = [] := by
  simp [makes, finished]

theorem awaited_of_over (finished : c.ending? = some e) : c.awaited = [] := by
  simp [awaited, finished]

theorem delay_of_over (finished : c.ending? = some e) : c.delay = 0 := by
  simp [delay, finished]

end Over

section Next

variable (bodies : Bodies B P) (rt : Runtime) (others : Nat → Scene B → Scene B)

theorem begun_next {c : Course B P ρ} (pending : c.ending? = none) :
    (c.next bodies rt others).begun = c.begun ++ c.state.begins c.scene := by
  rw [next_of_pending pending, begun, operations_follow, operations_note, List.filterMap_append]
  rfl

theorem awaited_follow {c : Course B P ρ} (pending : c.ending? = none) (next : Next B P ρ) :
    (c.follow others next).awaited = next.awaited := by
  cases next with
  | more s sc => simp [awaited, follow, pending, Next.awaited]
  | waiting s sc => simp [awaited, follow, pending, Next.awaited]
  | ended r sc => rfl
  | panicked panic sc => rfl

/-- At every point of a run the calls that were made are those that were begun, in the same order,
but for the one that is awaited. -/
theorem begun_course (s : State B P ρ) (sc : Scene B) (fresh : s.control.awaited = []) (n : Nat) :
    let run := course bodies rt others s sc
    (run n).begun = (callsBefore run n).map Call.code ++ (run n).awaited := by
  intro run
  induction n with
  | zero => exact fresh.symm
  | succ n ih =>
    rw [callsBefore_succ, List.map_append]
    cases ended : (run n).ending? with
    | some e =>
      have last : run (n + 1) = run n := next_of_over ended
      rw [last, makes_of_over ended, ih]
      simp
    | none =>
      have begins : (run (n + 1)).begun = _ := begun_next bodies rt others ended
      have awaits : (run (n + 1)).awaited = _ :=
        (congrArg awaited (next_of_pending ended)).trans
          (awaited_follow others (c := (run n).note) ended _)
      have awaited : (run n).awaited = (run n).state.control.awaited := by
        simp [Course.awaited, ended]
      have calls : (run n).makes = (run n).state.makes (run n).scene := by simp [makes, ended]
      -- what is awaited or begun is made in this step, or awaited after it
      calc (run (n + 1)).begun
        _ = (callsBefore run n).map Call.code ++
              ((run n).state.control.awaited ++ (run n).state.begins (run n).scene) := by
            rw [begins, ih, awaited, List.append_assoc]
        _ = _ := by
            rw [State.calls_of_step bodies rt, awaits, calls, List.append_assoc]

end Next

/-! ## Waits along a run -/

/-- The waits of a run that has begun so many calls, and has counted them: the calls have waited as
long as they are to wait, but for the one that is awaited. -/
structure Waits (rt : Runtime) (c : Course B P ρ) : Prop where
  waits : c.waits + c.delay = rt.waits c.begun.length
  calls : c.ending? = none → c.state.calls = c.begun.length

theorem waits_follow (others : Nat → Scene B → Scene B) {c : Course B P ρ}
    (pending : c.ending? = none) (next : Next B P ρ) :
    (c.follow others next).waits = c.waits + next.lapse ∧
      (c.follow others next).delay = next.delay := by
  cases next with
  | more s sc => exact ⟨rfl, by simp [delay, follow, pending, Next.delay]⟩
  | waiting s sc => exact ⟨rfl, by simp [delay, follow, pending, Next.delay]⟩
  | ended r sc => exact ⟨rfl, rfl⟩
  | panicked panic sc => exact ⟨rfl, rfl⟩

theorem Waits.next {rt : Runtime} {c : Course B P ρ} (h : c.Waits rt) (bodies : Bodies B P)
    (others : Nat → Scene B → Scene B) : (c.next bodies rt others).Waits rt := by
  cases ended : c.ending? with
  | some e => rwa [next_of_over ended]
  | none =>
    obtain ⟨lapses, counts⟩ := State.delay_of_step bodies rt c.state c.scene
    have waited : c.waits + c.state.control.delay = rt.waits c.state.calls := by
      rw [h.calls ended, ← h.waits]
      simp [delay, ended]
    have begins : (c.next bodies rt others).begun.length =
        c.state.calls + (c.state.begins c.scene).length := by
      rw [begun_next bodies rt others ended, List.length_append, h.calls ended]
    refine ⟨?_, fun pending => ?_⟩
    · obtain ⟨waits, delay⟩ := waits_follow others (c := c.note) ended
        (c.state.step bodies rt c.scene)
      rw [begins, next_of_pending ended, waits, delay]
      show c.waits + _ + _ = _
      omega
    · rw [begins]
      obtain ⟨sc', goes, -⟩ := goesTo_of_next pending
      exact counts _ sc' goes

theorem waits_course (bodies : Bodies B P) (rt : Runtime) (others : Nat → Scene B → Scene B)
    (f : Fiber) {a : Algebra} (handle : B.Handle a) (p : Program B P a ρ) (fs : Fibers)
    (sc : Scene B) (n : Nat) : (course bodies rt others (.start f handle p fs) sc n).Waits rt := by
  induction n with
  | zero => exact ⟨rfl, fun _ => rfl⟩
  | succ n ih => exact ih.next bodies others

/-! ## Following the eager run -/

section Eager

variable (bodies : Bodies B P) (rt : Runtime)

theorem eager_follow {c : Course B P ρ} {next : Next B P ρ}
    (atOnce : ∀ s sc, next ≠ .waiting s sc) :
    (c.follow Scene.undisturbed next).eager = c.eager.follow Scene.undisturbed next.eager := by
  cases next with
  | waiting s sc => exact absurd rfl (atOnce s sc)
  | _ => rfl

/-- Where no call has to wait, the eager run takes the same step. -/
theorem eager_next {c : Course B P ρ} (ready : c.delay = 0) :
    (c.next bodies rt Scene.undisturbed).eager = c.eager.next bodies .inline Scene.undisturbed ∧
      c.eager.makes = c.makes := by
  obtain ⟨s, sc, log, waits, ending⟩ := c
  cases ending with
  | some e => exact ⟨rfl, rfl⟩
  | none =>
    have same : s.eager = s := State.eager_of_delay ready
    refine ⟨?_, congrArg (State.makes · sc) same⟩
    show (follow _ (note _) (s.step bodies rt sc)).eager =
      (note ⟨s.eager, sc, log, 0, none⟩).follow _ (s.eager.step bodies .inline sc)
    rw [eager_follow fun s' sc' => State.not_waiting bodies rt ready,
      State.eager_step bodies rt ready, same]
    simp only [Course.eager, note, same]

/-- Where a call has to wait, the eager run stays where it is. -/
theorem eager_next_of_delay {c : Course B P ρ} {turns : Nat} (late : c.delay = turns + 1) :
    (c.next bodies rt Scene.undisturbed).eager = c.eager ∧
      (c.next bodies rt Scene.undisturbed).delay = turns ∧ c.makes = [] := by
  obtain ⟨s, sc, log, waits, ending⟩ := c
  cases ending with
  | some e => cases late
  | none =>
    obtain ⟨s', next, same, left, executed, makes⟩ := State.step_of_delay bodies rt sc late
    have quiet : s.does sc = [] := congrArg (List.map _) executed
    show (follow _ (note _) (s.step bodies rt sc)).eager = _ ∧
      (follow _ (note _) (s.step bodies rt sc)).delay = _ ∧ s.makes sc = []
    rw [next]
    refine ⟨?_, left, makes⟩
    simp only [Course.eager, follow, note, quiet, List.append_nil, same, Scene.undisturbed]

section Runs

variable (s : State B P ρ) (sc : Scene B)

/-- After a point there comes one that the eager run reaches in one step. -/
theorem catches_up (n : Nat) :
    let run := course bodies rt Scene.undisturbed s sc
    ∃ m, n < m ∧ (run m).eager = (run n).eager.next bodies .inline Scene.undisturbed ∧
      callsBefore run m = callsBefore run n ++ (run n).eager.makes := by
  intro run
  -- the induction is on the turns that the call has to wait still
  induction waiting : (run n).delay generalizing n with
  | zero =>
    obtain ⟨next, makes⟩ := eager_next bodies rt waiting
    refine ⟨n + 1, Nat.lt_succ_self n, next, ?_⟩
    rw [callsBefore_succ, makes]
  | succ turns ih =>
    obtain ⟨same, left, none⟩ := eager_next_of_delay bodies rt waiting
    obtain ⟨m, lt, next, calls⟩ := ih (n + 1) left
    have same : (run (n + 1)).eager = (run n).eager := same
    refine ⟨m, Nat.lt_of_succ_lt lt, ?_, ?_⟩
    · rw [next, same]
    · rw [calls, callsBefore_succ, none, List.append_nil, same]

/-- Every point of a run is one of the eager run, with the same calls made before. -/
theorem eager_of_course (fresh : s.eager = s) (n : Nat) :
    let run rt := course bodies rt Scene.undisturbed s sc
    ∃ k, k ≤ n ∧ run .inline k = (run rt n).eager ∧
      callsBefore (run .inline) k = callsBefore (run rt) n := by
  intro run
  induction n with
  | zero => exact ⟨0, Nat.le_refl 0, congrArg (Course.mk · sc [] 0 none) fresh.symm, rfl⟩
  | succ n ih =>
    obtain ⟨k, le, point, calls⟩ := ih
    cases waiting : (run rt n).delay with
    | zero =>
      obtain ⟨next, makes⟩ := eager_next bodies rt waiting
      refine ⟨k + 1, Nat.succ_le_succ le, ?_, ?_⟩
      · exact (congrArg (Course.next bodies .inline Scene.undisturbed) point).trans next.symm
      · rw [callsBefore_succ, callsBefore_succ, calls, point, makes]
    | succ turns =>
      -- the eager run stays at the call that is waited for here
      obtain ⟨same, -, none⟩ := eager_next_of_delay bodies rt waiting
      refine ⟨k, Nat.le_succ_of_le le, point.trans same.symm, ?_⟩
      rw [callsBefore_succ, none, List.append_nil, calls]

/-- Every point of the eager run is reached. -/
theorem course_of_eager (fresh : s.eager = s) (k : Nat) :
    let run rt := course bodies rt Scene.undisturbed s sc
    ∃ n, k ≤ n ∧ (run rt n).eager = run .inline k ∧
      callsBefore (run rt) n = callsBefore (run .inline) k := by
  intro run
  induction k with
  | zero => exact ⟨0, Nat.le_refl 0, congrArg (Course.mk · sc [] 0 none) fresh, rfl⟩
  | succ k ih =>
    obtain ⟨n, le, point, calls⟩ := ih
    obtain ⟨m, lt, next, calls'⟩ := catches_up bodies rt s sc n
    refine ⟨m, Nat.lt_of_le_of_lt le lt, ?_, ?_⟩
    · exact next.trans (congrArg (Course.next bodies .inline Scene.undisturbed) point)
    · rw [callsBefore_succ, ← calls, ← point]
      exact calls'

end Runs

end Eager

end Course

/-! ## Invisibility -/

/-- On a runtime on which each call waits for one turn there are as many waits as calls. -/
theorem Runtime.waits_of_once {rt : Runtime} (once : ∀ i, rt.turns i = 1) (calls : Nat) :
    rt.waits calls = calls := by
  induction calls with
  | zero => rfl
  | succ calls ih => rw [waits, ih, once]

section Main

open Course

variable {a : Algebra} (bodies : Bodies B P) (rt : Runtime) (f : Fiber) (handle : B.Handle a)
  (p : Program B P a ρ) (sc : Scene B)

/-- The machine comes to the same end, and leaves the same scene, as on the runtime that makes
blocking calls at once. -/
theorem Course.run_iff_inline {e : Ending ρ} {sc' : Scene B} (known : e ≠ .exhausted) :
    (∃ bound, (⟨bodies, rt, bound⟩ : Machine B P).run f handle p sc = (e, sc')) ↔
      ∃ bound, (⟨bodies, .inline, bound⟩ : Machine B P).run f handle p sc = (e, sc') := by
  rw [Machine.run_iff_course known, Machine.run_iff_course known]
  constructor
  · rintro ⟨n, c, rfl, ended⟩
    obtain ⟨k, -, point, -⟩ := eager_of_course bodies rt (.start f handle p sc.fibers) sc rfl n
    exact ⟨k, _, point, ended⟩
  · rintro ⟨k, c, rfl, ended⟩
    obtain ⟨n, -, point, -⟩ := course_of_eager bodies rt (.start f handle p sc.fibers) sc rfl k
    dsimp only at point
    rw [← point] at ended
    exact ⟨n, _, rfl, ended⟩

/-- When a run is over, the calls of all blocking operations that it has carried out were made, and
it has waited as often as they were to wait. -/
theorem Course.all_made {n : Nat} {e : Ending ρ} :
    let run := course bodies rt Scene.undisturbed (.start f handle p sc.fibers) sc
    (run n).ending? = some e →
      (callsBefore run n).map Call.code = (run n).begun ∧
        (run n).waits = rt.waits (run n).begun.length := by
  intro run ended
  constructor
  · have begun := begun_course bodies rt Scene.undisturbed (.start f handle p sc.fibers) sc rfl n
    rw [begun, awaited_of_over ended, List.append_nil]
  · have waits := (waits_course bodies rt Scene.undisturbed f handle p sc.fibers sc n).waits
    rw [← waits, delay_of_over ended]
    rfl

/-- Consider a program on a handle, in a fiber, that nobody else disturbs, and any runtime.  The
machine comes to an end, and leaves a scene, exactly if it does so on the runtime that makes
blocking calls at once.

The runs go through the same points, in the same order: the same state but for the turns that a call
has to wait, the same scene, the same operations carried out and the same calls made, with the same
code in the same scene.  In each, the calls that were made are those of the blocking operations that
were carried out, each once and in the same order, but for the one that is awaited.

If the run is over, and has carried out some number of blocking operations, then all of their calls
were made, and the run is over in the poll whose number is the sum of their waits, all polls before
being pending.  If each call waits for one turn, that is the number of the blocking operations. -/
theorem Course.suspension_invisible :
    let run rt := course bodies rt Scene.undisturbed (.start f handle p sc.fibers) sc
    (∀ e sc', e ≠ .exhausted →
      ((∃ bound, (⟨bodies, rt, bound⟩ : Machine B P).run f handle p sc = (e, sc')) ↔
        ∃ bound, (⟨bodies, .inline, bound⟩ : Machine B P).run f handle p sc = (e, sc'))) ∧
    (∀ n, ∃ k, k ≤ n ∧ run .inline k = (run rt n).eager ∧
      callsBefore (run .inline) k = callsBefore (run rt) n) ∧
    (∀ k, ∃ n, k ≤ n ∧ (run rt n).eager = run .inline k ∧
      callsBefore (run rt) n = callsBefore (run .inline) k) ∧
    (∀ n, (run rt n).begun = (callsBefore (run rt) n).map Call.code ++ (run rt n).awaited) ∧
    ∀ n e, (run rt n).ending? = some e →
      let blocking := (run rt n).operations.countP fun e => e.operation.isBlocking
      (callsBefore (run rt) n).map Call.code = (run rt n).begun ∧
      (callsBefore (run rt) n).length = blocking ∧
      (∀ bound, n ≤ bound →
        let m : Machine B P := ⟨bodies, rt, bound⟩
        (∀ k, k < rt.waits blocking → ∃ r sc', m.poll f handle p sc k = (.pending r, sc')) ∧
        ∃ t : Turn (Run B P a ρ) ρ, t.ending? = some e ∧
          m.poll f handle p sc (rt.waits blocking) = (t, e.report a (run rt n).scene)) ∧
      ((∀ i, rt.turns i = 1) → rt.waits blocking = blocking) := by
  intro run
  refine ⟨fun _ _ => run_iff_inline bodies rt f handle p sc,
    eager_of_course bodies rt (.start f handle p sc.fibers) sc rfl,
    course_of_eager bodies rt (.start f handle p sc.fibers) sc rfl,
    begun_course bodies rt Scene.undisturbed (.start f handle p sc.fibers) sc rfl, ?_⟩
  intro n e ended blocking
  obtain ⟨made, waits⟩ := all_made bodies rt f handle p sc ended
  have count : (run rt n).begun.length = blocking := length_begun (run rt n)
  rw [count] at waits
  refine ⟨made, ?_, fun bound le => ?_, fun once => Runtime.waits_of_once once blocking⟩
  · rw [← count, ← made, List.length_map]
  · rw [← waits]
    exact Machine.poll_of_course (m := ⟨bodies, rt, bound⟩) le ended

end Main

/-- A region lowers the mask for a blocking call.  On the runtime on which each call waits for one
turn, the first poll is pending, and the second one brings what the machine comes to on the runtime
that makes the call at once. -/
theorem Course.suspension_invisible_in_region :
    let f : Fiber := ⟨.numbered 0, .numbered 0⟩
    let call : Program .notes .none .connection Unit :=
      .suspend .blocking (Host.update fun written : List Nat => (.ok (), written ++ [1]))
    let p : Program .notes .none .connection Unit := .uncancelable fun token => .poll token call
    let m rt : Machine .notes .none := ⟨Bodies.none, rt, 8⟩
    let poll := (m .stepped).poll f () p (.blank {})
    (∃ sc', (m .inline).run f () p (.blank {}) = (.outcome (.succeeded ()), sc') ∧
      ∃ bound, (⟨Bodies.none, .stepped, bound⟩ : Machine .notes .none).run f () p (.blank {}) =
        (.outcome (.succeeded ()), sc')) ∧
      (∃ r sc', poll 0 = (.pending r, sc')) ∧
        (poll 1).1.ending? = some (.outcome (.succeeded ())) ∧ (poll 1).2.world = [1] := by
  intro f call p m poll
  obtain ⟨sameEnd, -, -, -, atEnd⟩ :=
    suspension_invisible Bodies.none .stepped f () p (.blank {})
  have eager : (m .inline).run f () p (.blank {}) = (.outcome (.succeeded ()), _) := rfl
  have later := (sameEnd (.outcome (.succeeded ())) _ nofun).mpr ⟨8, eager⟩
  have count : ((course Bodies.none .stepped Scene.undisturbed (.start f () p {})
      (.blank {}) 8).operations.countP fun e => e.operation.isBlocking) = 1 := rfl
  have atEnd := atEnd 8 (.outcome (.succeeded ())) rfl
  have waits := (atEnd.2.2.2 fun _ => rfl).trans count
  have polls := atEnd.2.2.1 8 (Nat.le_refl 8)
  rw [waits] at polls
  obtain ⟨pending, t, ended, last⟩ := polls
  have last : poll 1 = _ := last
  refine ⟨⟨_, eager, later⟩, pending 0 Nat.zero_lt_one, ?_, ?_⟩
  · rw [last]
    exact ended
  · rw [last]
    rfl

end Cancelable
