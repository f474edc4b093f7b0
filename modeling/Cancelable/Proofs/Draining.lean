import Cancelable.Program.ReadAll
import Cancelable.Proofs.Outline
import Cancelable.Proofs.Streaming
import Cancelable.Proofs.Suspension
import Mathlib.Tactic.IntervalCases

/-!
# Reading a stream to its end

A run that reads a stream to its end is always in one of a few stages: it approaches the next read,
it waits for the answer, it leaves with a result, or it has finished.  Every stage but the last
comes to a later one, and only the answer to a read changes what is known of the stream.  So the
stream is emptied whatever the runtime does with the calls.

A cancellation is found at a look between two reads, or by the await of one.  What is left of the
program then is abandoned, and with it the reads that were still to come.

Main statement: `readAll_drains`.
-/

namespace Cancelable

variable {B : Backend} {P : Procedures} {ρ : Type}

/-! ## Steps that do nothing -/

namespace State

/-- Nothing is done to the scene, and no call is awaited. -/
def Still (s : State B P ρ) (sc sc' : Scene B) : Prop :=
  sc' = sc ∧ s.control.awaited = []

/-- Steps that do nothing lead from one state to another one, in whatever scene they are taken. -/
abbrev Comes (bodies : Bodies B P) (rt : Runtime) (s t : State B P ρ) (sc : Scene B) : Prop :=
  Leads bodies rt Still s sc t sc

theorem Comes.idle {bodies : Bodies B P} {rt : Runtime} {s t : State B P ρ} {sc : Scene B}
    (comes : s.Comes bodies rt t sc) (idle : t.control.awaited = []) : s.control.awaited = [] := by
  cases comes with
  | here => exact idle
  | step _ _ still _ => exact still.2

theorem calling_of_ok {a : Algebra} {α : Type} {f : Fiber} {calls : Nat} {site : Site B a}
    {stack : Stack B P a α ρ} {code : Host B.World (Except Failure α)} {sc sc' : Scene B}
    {result : Except Failure α} (host : sc.host code = (.ok result, sc')) :
    calling f calls site code stack sc =
      .more ⟨f, calls, site, .give (result.mapError .errored), stack⟩ sc' := by
  simp only [calling, hosting, host]
  rfl

end State

/-- Host code takes no cancellation back. -/
theorem Scene.isCanceled_of_host {α : Type} {sc sc' : Scene B} {code : Host B.World α}
    {exit : Except Panic α} (h : sc.host code = (exit, sc')) {f : Fiber}
    (canceled : sc.fibers.isCanceled f = true) : sc'.fibers.isCanceled f = true := by
  apply Fibers.isCanceled_of_requested
  · exact Scene.isRequested_of_host h (Fibers.isRequested_of_isCanceled canceled)
  · exact (Scene.mask_of_host h f).symm
  · exact canceled

/-! ## The frames of the rows -/

namespace CopyOut

variable {bs : {a : Algebra} → {α : Type} → P a α → Program B (Routine P) a α} {rt : Runtime}
  {f : Fiber} {calls : Nat} {site : Site B .copyOut}
  {rest : Stack B (Routine P) .copyOut (List Bytes) ρ} {sc : Scene B}

/-- The frames that wait while rows are read, after the given ones have been, latest first: each of
these is to be put at the end of the rows read after it, and in the end all are reversed. -/
def collecting (rest : Stack B (Routine P) .copyOut (List Bytes) ρ) :
    List Bytes → Stack B (Routine P) .copyOut (Array Bytes) ρ
  | [] => .cons (.map fun rows => Host.pure rows.reverse.toList) rest
  | row :: earlier => .cons (.map fun rows => Host.pure (rows.push row)) (collecting rest earlier)

/-- About to read a row. -/
def reading (f : Fiber) (calls : Nat) (site : Site B .copyOut)
    (rest : Stack B (Routine P) .copyOut (List Bytes) ρ) (earlier : List Bytes) :
    State B (Routine P) ρ :=
  ⟨f, calls, site, .run (.op (a := .copyOut) Op.readRow),
    .cons (.bind afterRow) (collecting rest earlier)⟩

/-- The call of a read is awaited. -/
def awaiting (f : Fiber) (calls : Nat) (site : Site B .copyOut)
    (rest : Stack B (Routine P) .copyOut (List Bytes) ρ) (earlier : List Bytes) (turns : Nat) :
    State B (Routine P) ρ :=
  ⟨f, calls, site, .block turns (B.invoke site.handle (Op.readRow : Cancelable.Op .copyOut)),
    .cons (.bind afterRow) (collecting rest earlier)⟩

/-- A read has been answered. -/
def answered (f : Fiber) (calls : Nat) (site : Site B .copyOut)
    (rest : Stack B (Routine P) .copyOut (List Bytes) ρ) (earlier : List Bytes)
    (answer : Except Interrupted (Option Bytes)) : State B (Routine P) ρ :=
  ⟨f, calls, site, .give answer, .cons (.bind afterRow) (collecting rest earlier)⟩

theorem comes_to_first_read :
    State.Comes (Routine.body bs) rt ⟨f, calls, site, .run readAll, rest⟩
      (reading f calls site rest []) sc :=
  .step rfl rfl ⟨rfl, rfl⟩ (.step rfl rfl ⟨rfl, rfl⟩ (.step rfl rfl ⟨rfl, rfl⟩ .here))

/-- After a row the next read is reached, and the row waits in a frame of its own. -/
theorem comes_to_next_read (earlier : List Bytes) (row : Bytes) :
    State.Comes (Routine.body bs) rt (answered f calls site rest earlier (.ok (some row)))
      (reading f calls site rest (row :: earlier)) sc :=
  .step rfl rfl ⟨rfl, rfl⟩ (.step rfl rfl ⟨rfl, rfl⟩ (.step rfl rfl ⟨rfl, rfl⟩
    (.step rfl rfl ⟨rfl, rfl⟩ .here)))

/-- The frames put the rows in order. -/
theorem comes_to_rows (earlier : List Bytes) (rows : Array Bytes) :
    State.Comes (Routine.body bs) rt
      ⟨f, calls, site, .give (.ok rows), collecting rest earlier⟩
      ⟨f, calls, site, .give (.ok (earlier.reverse ++ rows.toList.reverse)), rest⟩ sc := by
  induction earlier generalizing rows with
  | nil =>
    have reversed : State.Comes (Routine.body bs) rt
        ⟨f, calls, site, .give (.ok rows.reverse.toList), rest⟩
        ⟨f, calls, site, .give (.ok rows.toList.reverse), rest⟩ sc := by
      rw [Array.toList_reverse]
      exact .here
    exact .step rfl rfl ⟨rfl, rfl⟩ reversed
  | cons row earlier ih =>
    have further := ih (rows.push row)
    rw [Array.toList_push, List.reverse_concat, List.append_cons, ← List.reverse_cons] at further
    exact .step rfl rfl ⟨rfl, rfl⟩ further

/-- What has been read is returned when there is no row left. -/
theorem comes_to_end (rows : List Bytes) :
    State.Comes (Routine.body bs) rt (answered f calls site rest rows.reverse (.ok none))
      ⟨f, calls, site, .give (.ok rows), rest⟩ sc := by
  have collected : State.Comes (Routine.body bs) rt
      ⟨f, calls, site, .give (.ok #[]), collecting rest rows.reverse⟩
      ⟨f, calls, site, .give (.ok (rows.reverse.reverse ++ [])), rest⟩ sc :=
    comes_to_rows rows.reverse #[]
  rw [List.append_nil, List.reverse_reverse] at collected
  exact .step rfl rfl ⟨rfl, rfl⟩ (.step rfl rfl ⟨rfl, rfl⟩ collected)

/-- No frame keeps a failure or a cancellation back. -/
theorem comes_to_interruption (earlier : List Bytes) (i : Interrupted) :
    State.Comes (Routine.body bs) rt (answered f calls site rest earlier (.error i))
      ⟨f, calls, site, .give (.error i), rest⟩ sc := by
  have passes : State.Comes (Routine.body bs) rt
      ⟨f, calls, site, .give (.error i), collecting rest earlier⟩
      ⟨f, calls, site, .give (.error i), rest⟩ sc := by
    induction earlier with
    | nil => exact .step rfl rfl ⟨rfl, rfl⟩ .here
    | cons row earlier ih => exact .step rfl rfl ⟨rfl, rfl⟩ ih
  exact .step rfl rfl ⟨rfl, rfl⟩ passes

end CopyOut

/-! ## Points that a run comes to -/

namespace Course

variable {bodies : Bodies B P} {rt : Runtime} {others : Nat → Scene B → Scene B}
  {run : Nat → Course B P ρ} {n : Nat} {s t : State B P ρ} {sc sc' : Scene B}

theorem callsBefore_of_idle (idle : (run n).state.control.awaited = []) :
    callsBefore run (n + 1) = callsBefore run n := by
  rw [callsBefore_succ, makes, State.makes_of_idle idle, ite_self, List.append_nil]

section Steps

variable (steps : ∀ n, run (n + 1) = (run n).next bodies rt others)
include steps

theorem follow_more (pending : (run n).ending? = none)
    (more : (run n).state.step bodies rt (run n).scene = .more s sc) :
    (run (n + 1)).ending? = none ∧ (run (n + 1)).state = s ∧ (run (n + 1)).scene = sc := by
  rw [steps, next_of_pending pending, more]
  exact ⟨pending, rfl, rfl⟩

theorem follow_waiting (pending : (run n).ending? = none)
    (waiting : (run n).state.step bodies rt (run n).scene = .waiting s sc) :
    (run (n + 1)).ending? = none ∧ (run (n + 1)).state = s ∧
      ∃ m, (run (n + 1)).scene = others m sc := by
  rw [steps, next_of_pending pending, waiting]
  exact ⟨pending, rfl, _, rfl⟩

theorem follow_ended {r : Except Interrupted ρ} (pending : (run n).ending? = none)
    (ended : (run n).state.step bodies rt (run n).scene = .ended r sc) :
    (run (n + 1)).ending? = some (.outcome (.ofExcept r)) ∧ (run (n + 1)).scene = sc := by
  rw [steps, next_of_pending pending, ended]
  exact ⟨rfl, rfl⟩

/-- A point to which steps lead that do nothing is reached already, or the next step is one of
them. -/
theorem reached_or_follow (pending : (run n).ending? = none)
    (comes : State.Comes bodies rt (run n).state t (run n).scene) :
    (run n).state = t ∨
      (run (n + 1)).ending? = none ∧ callsBefore run (n + 1) = callsBefore run n ∧
        (run (n + 1)).scene = (run n).scene ∧
          State.Comes bodies rt (run (n + 1)).state t (run (n + 1)).scene := by
  generalize start : (run n).state = s at comes
  cases comes with
  | here => exact .inl rfl
  | step more idle still rest =>
    subst start
    obtain ⟨same, quiet⟩ := still
    obtain ⟨going, state, scene⟩ := follow_more steps pending more
    subst same
    refine .inr ⟨going, callsBefore_of_idle quiet, scene, ?_⟩
    rw [state, scene]
    exact rest

/-- A point to which steps lead that do nothing is reached. -/
theorem arrives (leads : State.Leads bodies rt State.Still s sc t sc')
    (pending : (run n).ending? = none) (state : (run n).state = s) (scene : (run n).scene = sc) :
    ∃ m, n ≤ m ∧ (run m).ending? = none ∧ (run m).state = t ∧ (run m).scene = sc' ∧
      callsBefore run m = callsBefore run n := by
  induction leads generalizing n with
  | here => exact ⟨n, Nat.le_refl n, pending, state, scene, rfl⟩
  | step more idle still rest ih =>
    subst state scene
    obtain ⟨going, state, scene⟩ := follow_more steps pending more
    obtain ⟨m, le, going, state, scene, calls⟩ := ih going state scene
    exact ⟨m, Nat.le_of_succ_le le, going, state, scene,
      calls.trans (callsBefore_of_idle still.2)⟩

end Steps

end Course

/-! ## Runs -/

namespace CopyOut

/-- How the read of this number is answered by a stream that has these rows, and then comes to its
end or fails. -/
def answerTo (rows : List Bytes) (last : Except Failure Unit) (number : Nat) :
    Except Failure (Option Bytes) :=
  match rows[number]? with
  | some row => .ok (some row)
  | none => last.map fun _ => none

/-- What reading such a stream to its end comes to. -/
def resultOf (rows : List Bytes) (last : Except Failure Unit) : Except Interrupted (List Bytes) :=
  (last.map fun _ => rows).mapError .errored

/-- A run that reads a stream to its end: where it is started, what others do while it waits, the
rows that the stream has, how the reads end, and what is known of the scene after so many reads. -/
structure Drain (B : Backend) (P : Procedures) : Type 1 where
  bodies : {a : Algebra} → {α : Type} → P a α → Program B (Routine P) a α
  runtime : Runtime
  others : Nat → Scene B → Scene B
  fiber : Fiber
  handle : B.Handle .copyOut
  scene : Scene B
  rows : List Bytes
  last : Except Failure Unit
  known : Nat → Scene B → Prop

namespace Drain

open Course

variable (d : Drain B P)

def run : Nat → Course B (Routine P) (List Bytes) :=
  course (Routine.body d.bodies) d.runtime d.others
    (.start d.fiber d.handle readAll d.scene.fibers) d.scene

def site : Site B .copyOut :=
  ⟨d.handle, d.scene.fibers.mask d.fiber, []⟩

/-- The code of a read. -/
def read : Code B :=
  ⟨_, B.invoke d.handle (Op.readRow : Cancelable.Op .copyOut)⟩

/-- The calls made before a step. -/
def made (n : Nat) : List (Call B) :=
  callsBefore d.run n

/-- The rows read before a step, latest first. -/
def earlier (n : Nat) : List Bytes :=
  (d.rows.take (d.made n).length).reverse

/-- What is known holds at the start, and is left by reports and by others; and what is known when a
read is made decides how it is answered. -/
structure Feeds : Prop where
  start : d.known 0 d.scene
  emits : ∀ {j sc} (h : Happening) (spans : List Algebra),
    d.known j sc → d.known j (sc.emit h spans)
  spared : ∀ {j sc} (n : Nat), d.known j sc → d.known j (d.others n sc)
  reads : ∀ n, (d.run n).makes ≠ [] → d.known (d.made n).length (d.run n).scene →
    ∃ sc, (d.run n).scene.host (B.invoke d.handle (Op.readRow : Cancelable.Op .copyOut)) =
        (.ok (answerTo d.rows d.last (d.made n).length), sc) ∧ d.known ((d.made n).length + 1) sc

/-- What the run comes to, and when: all reads have been made, or a look has found a cancellation
before one of them. -/
inductive Fits (n : Nat) : Except Interrupted (List Bytes) → Prop where
  | drained (all : (d.made n).length = d.rows.length + 1) : Fits n (resultOf d.rows d.last)
  | refused (few : (d.made n).length ≤ d.rows.length) (i : Nat) (lt : i < n)
      (pending : (d.run i).ending? = none) (finds : (d.run i).state.finds (d.run i).scene = true)
      (canceled : (d.run i).scene.fibers.isCanceled d.fiber = true) : Fits n (.error .canceled)

/-- The run is not over, and has a row to read or the end to find. -/
structure Going (n : Nat) : Prop where
  pending : (d.run n).ending? = none
  few : (d.made n).length ≤ d.rows.length
  knows : d.known (d.made n).length (d.run n).scene

/-- On the way to the next read. -/
structure Approaching (n : Nat) : Prop extends d.Going n where
  comes : ∃ calls, State.Comes (Routine.body d.bodies) d.runtime (d.run n).state
    (reading d.fiber calls d.site .nil (d.earlier n)) (d.run n).scene

/-- In a read. -/
structure Awaiting (n turns : Nat) : Prop extends d.Going n where
  state : ∃ calls, (d.run n).state = awaiting d.fiber calls d.site .nil (d.earlier n) turns

/-- On the way to the end. -/
structure Leaving (n : Nat) (result : Except Interrupted (List Bytes)) : Prop where
  pending : (d.run n).ending? = none
  knows : d.known (d.made n).length (d.run n).scene
  fits : d.Fits n result
  comes : ∃ calls, State.Comes (Routine.body d.bodies) d.runtime (d.run n).state
    ⟨d.fiber, calls, d.site, .give result, .nil⟩ (d.run n).scene

/-- At the end, where the mask has been set back. -/
structure Over (n : Nat) (result : Except Interrupted (List Bytes)) : Prop where
  fits : d.Fits n result
  ended : (d.run n).ending? = some (.outcome (.ofExcept result))
  knows : ∃ sc, d.known (d.made n).length sc ∧
    (d.run n).scene = sc.setMask d.fiber d.site.entry

/-- Where the run can be. -/
inductive Stage (n : Nat) : Prop where
  | approaching (h : d.Approaching n)
  | awaiting (turns : Nat) (h : d.Awaiting n turns)
  | leaving (result : Except Interrupted (List Bytes)) (h : d.Leaving n result)
  | finished (result : Except Interrupted (List Bytes)) (h : d.Over n result)

variable {d} {n : Nat} {result : Except Interrupted (List Bytes)}

theorem steps (n : Nat) :
    d.run (n + 1) = (d.run n).next (Routine.body d.bodies) d.runtime d.others := rfl

theorem earlier_of_same (same : d.made (n + 1) = d.made n) : d.earlier (n + 1) = d.earlier n := by
  rw [earlier, same, earlier]

theorem earlier_of_row {row : Bytes} (read : d.rows[(d.made n).length]? = some row)
    (count : (d.made (n + 1)).length = (d.made n).length + 1) :
    d.earlier (n + 1) = row :: d.earlier n := by
  simp [earlier, count, List.take_add_one, read]

theorem earlier_of_all (all : d.rows.length ≤ (d.made n).length) :
    d.earlier n = d.rows.reverse := by
  rw [earlier, List.take_of_length_le all]

theorem Fits.mono {m : Nat} (fits : d.Fits n result) (le : n ≤ m) (same : d.made m = d.made n) :
    d.Fits m result := by
  cases fits with
  | drained all => exact .drained (same ▸ all)
  | refused few i lt pending finds canceled =>
    exact .refused (same ▸ few) i (Nat.lt_of_lt_of_le lt le) pending finds canceled

theorem Going.succ (h : d.Going n) (pending : (d.run (n + 1)).ending? = none)
    (same : d.made (n + 1) = d.made n)
    (knows : d.known (d.made n).length (d.run (n + 1)).scene) : d.Going (n + 1) :=
  ⟨pending, same ▸ h.few, same ▸ knows⟩

/-! ### From stage to stage -/

/-- A run that has its result is over in the next step. -/
theorem Leaving.ends {calls : Nat} (h : d.Leaving n result)
    (state : (d.run n).state = ⟨d.fiber, calls, d.site, .give result, .nil⟩) :
    d.Over (n + 1) result ∧ d.made (n + 1) = d.made n := by
  have step : (d.run n).state.step (Routine.body d.bodies) d.runtime (d.run n).scene =
      .ended result ((d.run n).scene.setMask d.fiber d.site.entry) := by
    rw [state]
    rfl
  obtain ⟨ended, scene⟩ := follow_ended steps h.pending step
  have same : d.made (n + 1) = d.made n := callsBefore_of_idle (by rw [state]; rfl)
  exact ⟨⟨h.fits.mono (Nat.le_succ n) same, ended, _, same ▸ h.knows, scene⟩, same⟩

theorem Leaving.next (h : d.Leaving n result) :
    (d.Leaving (n + 1) result ∨ d.Over (n + 1) result) ∧ d.made (n + 1) = d.made n := by
  obtain ⟨calls, comes⟩ := h.comes
  rcases reached_or_follow steps h.pending comes with state | ⟨pending, same, scene, comes⟩
  · obtain ⟨finished, same⟩ := h.ends state
    exact ⟨.inr finished, same⟩
  · have same : d.made (n + 1) = d.made n := same
    refine ⟨.inl ⟨pending, ?_, h.fits.mono (Nat.le_succ n) same, calls, comes⟩, same⟩
    rw [same, scene]
    exact h.knows

/-- A run on the way to the end comes to it, and makes no call any more. -/
theorem Leaving.finishes (h : d.Leaving n result) :
    ∃ m, n ≤ m ∧ d.Over m result ∧ d.made m = d.made n := by
  obtain ⟨calls, comes⟩ := h.comes
  obtain ⟨m, le, pending, state, scene, same⟩ := arrives steps comes h.pending rfl rfl
  have same : d.made m = d.made n := same
  have there : d.Leaving m result := by
    refine ⟨pending, ?_, h.fits.mono le same, calls, ?_⟩
    · rw [same, scene]
      exact h.knows
    · rw [state]
      exact .here
  obtain ⟨finished, after⟩ := there.ends state
  exact ⟨m + 1, Nat.le_succ_of_le le, finished, after.trans same⟩

/-- Where a read is reached, it is refused, or its call is begun. -/
theorem Going.looks {calls : Nat} (feeds : d.Feeds) (h : d.Going n)
    (state : (d.run n).state = reading d.fiber calls d.site .nil (d.earlier n)) :
    (if (d.run n).scene.fibers.isCanceled d.fiber then d.Leaving (n + 1) (.error .canceled)
      else d.Awaiting (n + 1) (d.runtime.turns calls)) ∧ d.made (n + 1) = d.made n := by
  have same : d.made (n + 1) = d.made n := callsBefore_of_idle (by rw [state]; rfl)
  have step := congrArg
    (fun s => s.step (Routine.body d.bodies) d.runtime (d.run n).scene) state
  refine ⟨?_, same⟩
  split
  · next canceled =>
    have refused := step.trans (State.observing_of_canceled canceled _)
    obtain ⟨going, after, scene⟩ := follow_more steps h.pending refused
    -- this look is what the cancellation is put down to
    have finds : (d.run n).state.finds (d.run n).scene = true := by
      rw [state]
      exact State.finds_of_canceled rfl canceled
    have fits : d.Fits (n + 1) (.error .canceled) :=
      .refused (same ▸ h.few) n (Nat.lt_succ_self n) h.pending finds canceled
    refine ⟨going, ?_, fits, calls, ?_⟩
    · rw [same, scene]
      exact feeds.emits _ _ h.knows
    · rw [after]
      exact comes_to_interruption _ _
  · next clear =>
    have begun := step.trans (State.observing_of_clear ((Bool.not_eq_true _).mp clear) _)
    obtain ⟨going, after, scene⟩ := follow_more steps h.pending begun
    refine ⟨h.succ going same ?_, calls + 1, ?_⟩
    · rw [scene]
      exact feeds.emits _ _ h.knows
    · rw [earlier_of_same same]
      exact after

theorem Approaching.next (feeds : d.Feeds) (h : d.Approaching n) :
    (d.Approaching (n + 1) ∨ (∃ turns, d.Awaiting (n + 1) turns) ∨
      d.Leaving (n + 1) (.error .canceled)) ∧ d.made (n + 1) = d.made n := by
  obtain ⟨calls, comes⟩ := h.comes
  rcases reached_or_follow steps h.pending comes with state | ⟨pending, same, scene, comes⟩
  · obtain ⟨looked, same⟩ := h.toGoing.looks feeds state
    refine ⟨.inr ?_, same⟩
    split at looked
    · exact .inr looked
    · exact .inl ⟨_, looked⟩
  · have same : d.made (n + 1) = d.made n := same
    refine ⟨.inl ⟨h.succ pending same (scene ▸ h.knows), calls, ?_⟩, same⟩
    rw [earlier_of_same same]
    exact comes

theorem Awaiting.waits {turns : Nat} (feeds : d.Feeds) (h : d.Awaiting n (turns + 1)) :
    d.Awaiting (n + 1) turns ∧ d.made (n + 1) = d.made n ∧
      ∃ m, (d.run (n + 1)).scene = d.others m (d.run n).scene := by
  obtain ⟨calls, state⟩ := h.state
  have step : (d.run n).state.step (Routine.body d.bodies) d.runtime (d.run n).scene =
      .waiting (awaiting d.fiber calls d.site .nil (d.earlier n) turns) (d.run n).scene := by
    rw [state]
    rfl
  have same : d.made (n + 1) = d.made n := by
    rw [made, callsBefore_succ, Course.makes, state]
    simp [State.makes, awaiting, made]
  obtain ⟨going, after, m, scene⟩ := follow_waiting steps h.pending step
  refine ⟨⟨h.succ going same ?_, calls, ?_⟩, same, m, scene⟩
  · rw [scene]
    exact feeds.spared m h.knows
  · rw [earlier_of_same same]
    exact after

/-- After a row the next read is approached, and after any other answer the end. -/
theorem Awaiting.makes (feeds : d.Feeds) (h : d.Awaiting n 0) :
    (d.made (n + 1)).map Call.code = (d.made n).map Call.code ++ [d.read] ∧
      (d.run (n + 1)).scene = ((d.run n).scene.host d.read.2).2 ∧
      if (d.made n).length < d.rows.length then d.Approaching (n + 1)
      else d.Leaving (n + 1) (resultOf d.rows d.last) := by
  obtain ⟨calls, state⟩ := h.state
  have call : (d.run n).makes = [⟨d.read, (d.run n).scene.fibers, (d.run n).scene.world⟩] := by
    rw [Course.makes, h.pending, state]
    rfl
  have more : d.made (n + 1) = d.made n ++ _ := (callsBefore_succ d.run n).trans (by rw [call]; rfl)
  obtain ⟨sc, host, knows⟩ := feeds.reads n (by simp [call]) h.knows
  have step : (d.run n).state.step (Routine.body d.bodies) d.runtime (d.run n).scene =
      .more (answered d.fiber calls d.site .nil (d.earlier n)
        ((answerTo d.rows d.last (d.made n).length).mapError .errored)) sc := by
    rw [state]
    exact State.calling_of_ok host
  obtain ⟨going, after, scene⟩ := follow_more steps h.pending step
  have count : (d.made (n + 1)).length = (d.made n).length + 1 := by
    rw [more, List.length_append, List.length_singleton]
  rw [← count] at knows
  refine ⟨by rw [more, List.map_append]; rfl, scene.trans (congrArg Prod.snd host).symm, ?_⟩
  split
  · next lt =>
    have read : d.rows[(d.made n).length]? = some d.rows[(d.made n).length] :=
      List.getElem?_eq_getElem lt
    refine ⟨⟨going, by omega, scene ▸ knows⟩, calls, ?_⟩
    -- the row that was read is the next one of those that have frames
    rw [after, earlier_of_row read count, answerTo, read]
    exact comes_to_next_read _ _
  · next notLt =>
    have all : d.rows.length ≤ (d.made n).length := Nat.le_of_not_lt notLt
    have few := h.few
    refine ⟨going, scene ▸ knows, .drained (by omega), calls, ?_⟩
    rw [after, earlier_of_all all, answerTo, List.getElem?_eq_none all]
    cases d.last with
    | ok u => exact comes_to_end d.rows
    | error e => exact comes_to_interruption d.rows.reverse (.errored e)

/-! ### The whole run -/

theorem approaching_start (feeds : d.Feeds) : d.Approaching 0 :=
  ⟨⟨rfl, Nat.zero_le _, feeds.start⟩, 0, comes_to_first_read⟩

theorem Stage.next (feeds : d.Feeds) (h : d.Stage n) :
    d.Stage (n + 1) ∧ (d.made (n + 1) = d.made n ∨
      (d.made (n + 1)).map Call.code = (d.made n).map Call.code ++ [d.read]) := by
  cases h with
  | approaching h =>
    obtain ⟨h | ⟨turns, h⟩ | h, same⟩ := h.next feeds
    · exact ⟨.approaching h, .inl same⟩
    · exact ⟨.awaiting turns h, .inl same⟩
    · exact ⟨.leaving _ h, .inl same⟩
  | awaiting turns h =>
    cases turns with
    | succ turns =>
      obtain ⟨h, same, -⟩ := h.waits feeds
      exact ⟨.awaiting turns h, .inl same⟩
    | zero =>
      obtain ⟨one, -, h⟩ := h.makes feeds
      split at h
      · exact ⟨.approaching h, .inr one⟩
      · exact ⟨.leaving _ h, .inr one⟩
  | leaving result h =>
    obtain ⟨h | h, same⟩ := h.next
    · exact ⟨.leaving result h, .inl same⟩
    · exact ⟨.finished result h, .inl same⟩
  | finished result h =>
    have last : d.run (n + 1) = d.run n := next_of_over h.ended
    have same : d.made (n + 1) = d.made n := by
      rw [made, callsBefore_succ, makes_of_over h.ended, List.append_nil, made]
    refine ⟨.finished result ⟨h.fits.mono (Nat.le_succ n) same, last ▸ h.ended, ?_⟩, .inl same⟩
    rw [same, last]
    exact h.knows

theorem stage (feeds : d.Feeds) (n : Nat) : d.Stage n := by
  induction n with
  | zero => exact .approaching (approaching_start feeds)
  | succ n ih => exact (ih.next feeds).1

/-- All calls that are made are reads. -/
theorem codes (feeds : d.Feeds) (n : Nat) :
    (d.made n).map Call.code = List.replicate (d.made n).length d.read := by
  induction n with
  | zero => rfl
  | succ n ih =>
    rcases ((stage feeds n).next feeds).2 with same | one
    · rw [same]
      exact ih
    · have count : (d.made (n + 1)).length = (d.made n).length + 1 := by
        simpa using congrArg List.length one
      rw [one, ih, count, List.replicate_succ']

theorem Awaiting.comes {turns : Nat} (feeds : d.Feeds) (h : d.Awaiting n turns) :
    ∃ m, n ≤ m ∧ d.Awaiting m 0 ∧ d.made m = d.made n := by
  induction turns generalizing n with
  | zero => exact ⟨n, Nat.le_refl n, h, rfl⟩
  | succ turns ih =>
    obtain ⟨h, same, -⟩ := h.waits feeds
    obtain ⟨m, le, h, same'⟩ := ih h
    exact ⟨m, Nat.le_of_succ_le le, h, same'.trans same⟩

/-- The next read is reached. -/
theorem Approaching.arrives (h : d.Approaching n) :
    ∃ m calls, n ≤ m ∧ d.Going m ∧ d.made m = d.made n ∧ (d.run m).scene = (d.run n).scene ∧
      (d.run m).state = reading d.fiber calls d.site .nil (d.earlier m) := by
  obtain ⟨calls, comes⟩ := h.comes
  obtain ⟨m, le, pending, state, scene, same⟩ := Course.arrives steps comes h.pending rfl rfl
  have same : d.made m = d.made n := same
  refine ⟨m, calls, le, ⟨pending, same ▸ h.few, ?_⟩, same, scene, ?_⟩
  · rw [same, scene]
    exact h.knows
  · rw [state, earlier, earlier, same]

/-- Between two reads a request that is pending at the mask depth zero is found. -/
theorem Approaching.refused (feeds : d.Feeds) (h : d.Approaching n)
    (canceled : (d.run n).scene.fibers.isCanceled d.fiber = true) :
    ∃ m, n ≤ m ∧ d.Over m (.error .canceled) ∧ d.made m = d.made n := by
  obtain ⟨m, calls, le, going, same, scene, state⟩ := h.arrives
  obtain ⟨looked, same'⟩ := going.looks feeds state
  rw [scene, if_pos canceled] at looked
  obtain ⟨k, le', finished, same''⟩ := looked.finishes
  exact ⟨k, by omega, finished, same''.trans (same'.trans same)⟩

/-- A read that has been begun is made although a request is pending that the others leave there.
If it yields a row, the request is found after it. -/
theorem Awaiting.refused {turns : Nat} (feeds : d.Feeds)
    (stays : ∀ k sc, sc.fibers.isCanceled d.fiber = true →
      (d.others k sc).fibers.isCanceled d.fiber = true)
    (h : d.Awaiting n turns) (few : (d.made n).length < d.rows.length)
    (canceled : (d.run n).scene.fibers.isCanceled d.fiber = true) :
    ∃ m, n ≤ m ∧ d.Over m (.error .canceled) ∧ (d.made m).length = (d.made n).length + 1 := by
  induction turns generalizing n with
  | succ turns ih =>
    obtain ⟨h, same, k, scene⟩ := h.waits feeds
    obtain ⟨m, le, finished, count⟩ := ih h (same ▸ few) (scene ▸ stays k _ canceled)
    exact ⟨m, Nat.le_of_succ_le le, finished, same ▸ count⟩
  | zero =>
    obtain ⟨one, scene, next⟩ := h.makes feeds
    rw [if_pos few] at next
    have count : (d.made (n + 1)).length = (d.made n).length + 1 := by
      simpa using congrArg List.length one
    have still : (d.run (n + 1)).scene.fibers.isCanceled d.fiber = true := by
      rw [scene]
      exact Scene.isCanceled_of_host rfl canceled
    obtain ⟨m, le, finished, same⟩ := next.refused feeds still
    exact ⟨m, Nat.le_of_succ_le le, finished, same ▸ count⟩

/-- The run comes to its end, or a row is read. -/
theorem Approaching.round (feeds : d.Feeds) (h : d.Approaching n) :
    (∃ m result, n ≤ m ∧ d.Over m result) ∨
      ∃ m, n ≤ m ∧ d.Approaching m ∧ (d.made m).length = (d.made n).length + 1 := by
  obtain ⟨m, calls, le, going, same, -, state⟩ := h.arrives
  obtain ⟨looked, same'⟩ := going.looks feeds state
  split at looked
  · obtain ⟨k, le', finished, -⟩ := looked.finishes
    exact .inl ⟨k, _, by omega, finished⟩
  · obtain ⟨k, le', awaits, same''⟩ := looked.comes feeds
    obtain ⟨one, -, next⟩ := awaits.makes feeds
    split at next
    · have count : (d.made (k + 1)).length = (d.made k).length + 1 := by
        simpa using congrArg List.length one
      refine .inr ⟨k + 1, by omega, next, ?_⟩
      rw [count, same'', same', same]
    · obtain ⟨l, le'', finished, -⟩ := next.finishes
      exact .inl ⟨l, _, by omega, finished⟩

/-- The run comes to its end.  The induction is on the rows that are left. -/
theorem Approaching.finishes (feeds : d.Feeds) (h : d.Approaching n) :
    ∃ m result, n ≤ m ∧ d.Over m result := by
  generalize left : d.rows.length + 1 - (d.made n).length = rows
  induction rows generalizing n with
  | zero =>
    have few := h.few
    omega
  | succ rows ih =>
    rcases h.round feeds with finished | ⟨m, le, h, count⟩
    · exact finished
    · obtain ⟨k, result, le', finished⟩ := ih h (by omega)
      exact ⟨k, result, Nat.le_trans le le', finished⟩

theorem finishes (feeds : d.Feeds) : ∃ n result, d.Over n result := by
  obtain ⟨n, result, -, finished⟩ := (approaching_start feeds).finishes feeds
  exact ⟨n, result, finished⟩

/-- If no look finds a cancellation, all reads are made. -/
theorem drains (feeds : d.Feeds) (quiet : ∀ n, (d.run n).ending? = none →
    (d.run n).state.finds (d.run n).scene = false ∨
      (d.run n).scene.fibers.isCanceled d.fiber = false) :
    ∃ n, d.Over n (resultOf d.rows d.last) ∧
      (d.made n).map Call.code = List.replicate (d.rows.length + 1) d.read := by
  obtain ⟨n, result, finished⟩ := finishes feeds
  cases finished.fits with
  | drained all =>
    refine ⟨n, finished, ?_⟩
    rw [codes feeds, all]
  -- the other way to an end is a look that has found a cancellation
  | refused few i lt pending finds canceled =>
    rcases quiet i pending with none | clear
    · rw [finds] at none
      cases none
    · rw [canceled] at clear
      cases clear

/-- A request that is pending at the mask depth zero while no read is awaited, and a read is left to
be made, ends the run before that read. -/
theorem refuses (feeds : d.Feeds) (pending : (d.run n).ending? = none)
    (idle : (d.run n).awaited = []) (few : (d.made n).length ≤ d.rows.length)
    (canceled : (d.run n).scene.fibers.isCanceled d.fiber = true) :
    ∃ m, n ≤ m ∧ d.Over m (.error .canceled) ∧ d.made m = d.made n := by
  cases stage feeds n with
  | approaching h => exact h.refused feeds canceled
  | awaiting turns h =>
    obtain ⟨calls, state⟩ := h.state
    rw [Course.awaited, pending, state] at idle
    cases idle
  | leaving result h =>
    cases h.fits with
    | drained all => omega
    | refused => exact h.finishes
  | finished result h =>
    rw [h.ended] at pending
    cases pending

/-- A request that is pending while a read is awaited ends the run after that read, if it yields a
row. -/
theorem refuses_later (feeds : d.Feeds)
    (stays : ∀ k sc, sc.fibers.isCanceled d.fiber = true →
      (d.others k sc).fibers.isCanceled d.fiber = true)
    (pending : (d.run n).ending? = none) (awaits : (d.run n).awaited ≠ [])
    (few : (d.made n).length < d.rows.length)
    (canceled : (d.run n).scene.fibers.isCanceled d.fiber = true) :
    ∃ m, n ≤ m ∧ d.Over m (.error .canceled) ∧ (d.made m).length = (d.made n).length + 1 := by
  have control : (d.run n).state.control.awaited ≠ [] := by
    rwa [Course.awaited, pending] at awaits
  cases stage feeds n with
  | approaching h =>
    obtain ⟨calls, comes⟩ := h.comes
    exact absurd (comes.idle rfl) control
  | awaiting turns h => exact h.refused feeds stays few canceled
  | leaving result h =>
    obtain ⟨calls, comes⟩ := h.comes
    exact absurd (comes.idle rfl) control
  | finished result h =>
    rw [h.ended] at pending
    cases pending

end Drain

/-- Whenever the run makes a read, it is answered by the row of its number, and if there are no more
rows, by the end of the stream or the failure in `last`. -/
def Yields (run : Nat → Course B P ρ) (handle : B.Handle .copyOut) (rows : List Bytes)
    (last : Except Failure Unit) : Prop :=
  ∀ n, (run n).makes ≠ [] →
    (B.invoke handle (Op.readRow : Cancelable.Op .copyOut) (run n).scene.fibers
      (run n).scene.world).exit = .ok (answerTo rows last (Course.callsBefore run n).length)

section Main

variable (bodies : {a : Algebra} → {α : Type} → P a α → Program B (Routine P) a α) (rt : Runtime)
  (others : Nat → Scene B → Scene B) (f : Fiber) (handle : B.Handle .copyOut) (rows : List Bytes)
  (last : Except Failure Unit) (sc : Scene B)

/-- A run of which nothing is known but how its reads are answered. -/
def Drain.ofAnswers : Drain B P :=
  ⟨bodies, rt, others, f, handle, sc, rows, last, fun _ _ => True⟩

theorem Drain.feeds_ofAnswers
    (yields :
      Yields (Drain.ofAnswers bodies rt others f handle rows last sc).run handle rows last) :
    (Drain.ofAnswers bodies rt others f handle rows last sc).Feeds where
  start := trivial
  emits _ _ _ := trivial
  spared _ _ := trivial
  reads n made _ := ⟨_, Prod.ext (yields n made) rfl, trivial⟩

end Main

section Simulated

variable {f : Fiber} {r : Simulation.Ref .copyOut} {s : Simulation.CopyOut}
  {sc : Scene Scenario.backend}
  (bodies : {a : Algebra} → {α : Type} → P a α → Program Scenario.backend (Routine P) a α)
  (rt : Runtime) (others : Nat → Scene Scenario.backend → Scene Scenario.backend)

/-- A run that reads a simulated stream, of which it is known how far it has been read. -/
def Drain.ofStream (f : Fiber) (r : Simulation.Ref .copyOut) (s : Simulation.CopyOut)
    (sc : Scene Scenario.backend) : Drain Scenario.backend P :=
  ⟨bodies, rt, others, f, r, sc, s.pending, .ok (), fun n => Scenario.Reads f r (s.afterReads n)⟩

theorem answerTo_of_stream (rows : List Bytes) (n : Nat) :
    answerTo rows (.ok ()) n = .ok rows[n]? := by
  unfold answerTo
  cases rows[n]? with
  | some row => rfl
  | none => rfl

theorem Drain.feeds_ofStream (active : s.active = true) (reads : Scenario.Reads f r s sc)
    (spared : ∀ n s sc, Scenario.Reads f r s sc → Scenario.Reads f r s (others n sc)) :
    (Drain.ofStream bodies rt others f r s sc).Feeds where
  start := reads
  emits _ _ known := ⟨known.stream, known.clear, known.uncanceled⟩
  spared n known := spared n _ _ known
  reads n _ known := by
    obtain ⟨sc', host, next⟩ := known.after_readRow
    rw [Simulation.CopyOut.readRow_afterReads active, ← answerTo_of_stream] at host
    exact ⟨sc', host, next⟩

theorem Drain.uncanceled_ofStream {n : Nat}
    (feeds : (Drain.ofStream bodies rt others f r s sc).Feeds)
    (pending : ((Drain.ofStream bodies rt others f r s sc).run n).ending? = none) :
    ((Drain.ofStream bodies rt others f r s sc).run n).scene.fibers.isCanceled f = false := by
  cases Drain.stage feeds n with
  | approaching h => exact h.knows.uncanceled
  | awaiting turns h => exact h.knows.uncanceled
  | leaving result h => exact h.knows.uncanceled
  | finished result h =>
    rw [h.ended] at pending
    cases pending

end Simulated

section Main

variable (bodies : {a : Algebra} → {α : Type} → P a α → Program B (Routine P) a α) (rt : Runtime)
  (others : Nat → Scene B → Scene B) (f : Fiber) (handle : B.Handle .copyOut) (rows : List Bytes)
  (sc : Scene B)

/-- Reading a stream to its end makes one read more than there are rows, and returns the rows in
order, or fails with the failure of the last read.  If a cancellation of the fiber is pending at the
mask depth zero between two reads, the run ends canceled and no further read is made; if it is so
while a read of a row is awaited, that read is the last one.  So it is whatever the runtime is, and
whatever others do while a read is awaited.

A simulated stream that was active is left empty and inactive, with all its rows counted, if others
leave it alone and do not cancel the fiber. -/
theorem readAll_drains :
    let run := course (Routine.body bodies) rt others (.start f handle readAll sc.fibers) sc
    let read : Code B := ⟨_, B.invoke handle (Op.readRow : Cancelable.Op .copyOut)⟩
    (Yields run handle rows (.ok ()) → (∀ n, (run n).state.finds (run n).scene = false) →
      ∃ n, (run n).ending? = some (.outcome (.succeeded rows)) ∧
        (Course.callsBefore run n).map Call.code = List.replicate (rows.length + 1) read) ∧
    (∀ failure, Yields run handle rows (.error failure) →
      (∀ n, (run n).state.finds (run n).scene = false) →
      ∃ n, (run n).ending? = some (.outcome (.errored failure)) ∧
        (Course.callsBefore run n).map Call.code = List.replicate (rows.length + 1) read) ∧
    (∀ last n, Yields run handle rows last → (run n).ending? = none → (run n).awaited = [] →
      (Course.callsBefore run n).length ≤ rows.length →
      (run n).scene.fibers.isCanceled f = true →
      ∃ m, (run m).ending? = some (.outcome .canceled) ∧
        (Course.callsBefore run m).map Call.code =
          List.replicate (Course.callsBefore run n).length read) ∧
    (∀ last n, Yields run handle rows last →
      (∀ k sc, sc.fibers.isCanceled f = true → (others k sc).fibers.isCanceled f = true) →
      (run n).ending? = none → (run n).awaited ≠ [] →
      (Course.callsBefore run n).length < rows.length →
      (run n).scene.fibers.isCanceled f = true →
      ∃ m, (run m).ending? = some (.outcome .canceled) ∧
        (Course.callsBefore run m).map Call.code =
          List.replicate ((Course.callsBefore run n).length + 1) read) ∧
    ∀ (bodies : {a : Algebra} → {α : Type} → P a α → Program Scenario.backend (Routine P) a α)
      (others : Nat → Scene Scenario.backend → Scene Scenario.backend) (f : Fiber)
      (r : Simulation.Ref .copyOut) (s : Simulation.CopyOut) (sc : Scene Scenario.backend),
      s.active = true → Scenario.Reads f r s sc →
      (∀ n s sc, Scenario.Reads f r s sc → Scenario.Reads f r s (others n sc)) →
      let run := course (Routine.body bodies) rt others (.start f r readAll sc.fibers) sc
      ∃ n, (run n).ending? = some (.outcome (.succeeded s.pending)) ∧
        (Course.callsBefore run n).length = s.pending.length + 1 ∧
        (run n).scene.world.bench.copyOuts.get r.index =
          { s with pending := [], handled := s.handled + s.pending.length, active := false } := by
  refine ⟨?_, ?_, ?_, ?_, ?_⟩
  · intro yields quiet
    obtain ⟨n, finished, calls⟩ := Drain.drains
      (Drain.feeds_ofAnswers bodies rt others f handle rows (.ok ()) sc yields)
      fun n _ => .inl (quiet n)
    exact ⟨n, finished.ended, calls⟩
  · intro failure yields quiet
    obtain ⟨n, finished, calls⟩ := Drain.drains
      (Drain.feeds_ofAnswers bodies rt others f handle rows (.error failure) sc yields)
      fun n _ => .inl (quiet n)
    exact ⟨n, finished.ended, calls⟩
  · intro last n yields pending idle few canceled
    have feeds := Drain.feeds_ofAnswers bodies rt others f handle rows last sc yields
    obtain ⟨m, -, finished, same⟩ := Drain.refuses feeds pending idle few canceled
    have calls := Drain.codes feeds m
    rw [same] at calls
    refine ⟨m, finished.ended, ?_⟩
    exact (congrArg (List.map Call.code) same).trans calls
  · intro last n yields stays pending awaits few canceled
    have feeds := Drain.feeds_ofAnswers bodies rt others f handle rows last sc yields
    obtain ⟨m, -, finished, count⟩ := Drain.refuses_later feeds stays pending awaits few canceled
    have calls := Drain.codes feeds m
    rw [count] at calls
    exact ⟨m, finished.ended, calls⟩
  · intro bodies others f r s sc active reads spared
    have feeds := Drain.feeds_ofStream bodies rt others active reads spared
    obtain ⟨n, finished, calls⟩ := Drain.drains feeds fun n pending =>
      .inr (Drain.uncanceled_ofStream bodies rt others feeds pending)
    have count : ((Drain.ofStream bodies rt others f r s sc).made n).length =
        s.pending.length + 1 := by
      have lengths := congrArg List.length calls
      rw [List.length_map, List.length_replicate] at lengths
      exact lengths
    obtain ⟨sc', known, scene⟩ := finished.knows
    refine ⟨n, finished.ended, count, ?_⟩
    rw [count] at known
    have stream : sc'.world.bench.copyOuts.get r.index = s.afterReads (s.pending.length + 1) :=
      known.stream
    rw [← Simulation.CopyOut.afterReads_all active, ← stream]
    exact congrArg (fun sc => sc.world.bench.copyOuts.get r.index) scene

end Main

/-- A stream of two rows on a runtime on which every call waits.  Left alone it is read to its end;
if the cancellation is requested while the first read is awaited, that read is the only one. -/
theorem readAll_drains_two_rows :
    let f : Fiber := .ofName "f"
    let r : Simulation.Ref .copyOut := ⟨0⟩
    let sc : Scene Scenario.backend :=
      ⟨{}, { bench := (({} : Simulation.Bench).newCopyOut "main" 1 [#[1], #[2]]).2 }, []⟩
    let bodies : {a : Algebra} → {α : Type} → Procedures.none a α →
      Program Scenario.backend (Routine .none) a α := fun procedure => nomatch procedure
    let canceling : Nat → Scene Scenario.backend → Scene Scenario.backend :=
      fun _ sc => { sc with fibers := sc.fibers.cancel f }
    let run others := course (Routine.body bodies) .stepped others
      (.start f r readAll sc.fibers) sc
    (∃ n, (run Scene.undisturbed n).ending? = some (.outcome (.succeeded [#[1], #[2]])) ∧
      (run Scene.undisturbed n).scene.world.bench.copyOuts.get 0 =
        { fields := 1, pending := [], handled := 2, active := false }) ∧
    ∃ n, (run canceling n).ending? = some (.outcome .canceled) ∧
      (Course.callsBefore (run canceling) n).length = 1 := by
  intro f r sc bodies canceling run
  constructor
  · have reads : Scenario.Reads f r { fields := 1, pending := [#[1], #[2]] } sc := ⟨rfl, rfl, rfl⟩
    obtain ⟨-, -, -, -, drained⟩ :=
      readAll_drains (P := .none) bodies .stepped Scene.undisturbed f r [] sc
    obtain ⟨n, ended, -, left⟩ :=
      drained bodies Scene.undisturbed f r _ sc rfl reads fun _ _ _ same => same
    exact ⟨n, ended, left⟩
  · have finished : (run canceling 15).ending? = some (.outcome .canceled) := rfl
    have yields : Yields (run canceling) r [#[1], #[2]] (.ok ()) := by
      intro n made
      rcases Nat.lt_or_ge n 15 with lt | ge
      · interval_cases n
        all_goals first | exact absurd rfl made | rfl
      · have last : run canceling n = run canceling 15 := Course.course_of_over ge finished
        rw [last, Course.makes_of_over finished] at made
        exact absurd rfl made
    obtain ⟨-, -, refused, -, -⟩ :=
      readAll_drains bodies .stepped canceling f r [#[1], #[2]] sc
    -- after six steps the first read has been answered, and the next one not begun
    obtain ⟨m, ended, calls⟩ := refused (.ok ()) 6 yields rfl rfl (by decide) rfl
    have lengths := congrArg List.length calls
    rw [List.length_map, List.length_replicate] at lengths
    exact ⟨m, ended, lengths⟩

end CopyOut
end Cancelable
