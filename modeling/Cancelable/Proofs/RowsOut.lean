import Cancelable.Proofs.Harmless
import Cancelable.Proofs.Streaming

/-!
# Rows read out of a table

A stream out of a table has rows that are still pending, a counter, and a mark that it is active.  A
read takes the first of the pending rows and counts it; the read after the last row finds none, and
only then is the stream no longer active.  Canceling makes it inactive at once, with rows left over.

What has been handed out is on record: the answers of the reads.  So it can be compared with what
the stream holds after any history, in which reads may be scripted to fail, the stream may be
canceled, and other resources may be used in between.

Main statements: what an event makes of a stream (`Bench.Step.copyOutOf_cases`), and that in every
history the rows handed out and those pending are the table, each row once and in order
(`Bench.rows_delivered_once`).
-/

namespace Cancelable
namespace Simulation

/-! ## Answers and changes -/

namespace CopyOut

/-- What an operation on a stream is answered. -/
def answer (s : CopyOut) : (o : CopyOut.Op) → Except Stop (CopyOut.Op.Answer Ref o)
  | .readRow => .ok (readRow s).1
  | .cancel => .ok ()
  | .fieldCount => .ok s.fields
  | .fieldFormat field =>
    if 0 ≤ field ∧ field < s.fields then .ok 0 else .error (.rejected (.noField field))
  | .format => .ok 0
  | .handledRowCount => .ok s.handled
  | .isActive => .ok s.active

/-- A stream after an operation on it that succeeds. -/
def next (s : CopyOut) : CopyOut.Op → CopyOut
  | .readRow => (readRow s).2
  | .cancel => { s with active := false }
  | .fieldCount | .fieldFormat _ | .format | .handledRowCount | .isActive => s

end CopyOut

namespace Bench

/-- A stream, as it is on the bench. -/
def copyOutOf (b : Bench) (r : Ref .copyOut) : CopyOut :=
  b.copyOuts.get r.index

def setCopyOut (b : Bench) (r : Ref .copyOut) (s : CopyOut) : Bench :=
  { b with copyOuts := b.copyOuts.set r.index s }

@[simp] theorem copyOutOf_setCopyOut (b : Bench) (r : Ref .copyOut) (s : CopyOut) :
    (b.setCopyOut r s).copyOutOf r = s := by
  simp [copyOutOf, setCopyOut]

end Bench

namespace CopyOut

/-- The work of an operation comes to its answer and, if that is a value, to its change. -/
theorem run_act (b : Bench) (r : Ref .copyOut) (o : CopyOut.Op) :
    ∃ c : Bench, c.copyOutOf r = next (b.copyOutOf r) o ∧
      (act r o : Work (CopyOut.Op.Answer Ref o)).run b =
        (answer (b.copyOutOf r) o).map fun x => (x, c) := by
  -- where the answer is read off the stream the bench stays, else the stream is replaced
  cases o with
  | readRow => exact ⟨b.setCopyOut r (next (b.copyOutOf r) .readRow), by simp, rfl⟩
  | cancel => exact ⟨b.setCopyOut r (next (b.copyOutOf r) .cancel), by simp, rfl⟩
  | fieldCount | format | handledRowCount | isActive => exact ⟨b, rfl, rfl⟩
  | fieldFormat field => exact ⟨b, rfl, run_fieldFormat _ field b⟩

/-- The three kinds of reads: there is a row, or the end is found, or it was reached before. -/
theorem readRow_cases (s : CopyOut) :
    (∃ row rest, s.active = true ∧ s.pending = row :: rest ∧
      readRow s = (some row, { s with pending := rest, handled := s.handled + 1 })) ∨
    (s.active = true ∧ s.pending = [] ∧ readRow s = (none, { s with active := false })) ∨
    (s.active = false ∧ readRow s = (none, s)) := by
  by_cases active : s.active = true
  · by_cases empty : s.pending = []
    · exact .inr (.inl ⟨active, empty, readRow_of_empty active empty⟩)
    · obtain ⟨row, rest, pending⟩ := List.exists_cons_of_ne_nil empty
      exact .inl ⟨row, rest, active, pending, readRow_of_row active pending⟩
  · have inactive : s.active = false := by simpa using active
    exact .inr (.inr ⟨inactive, readRow_of_inactive inactive⟩)

end CopyOut

/-! ## Performing -/

namespace Bench

variable {b c : Bench} {r : Ref .copyOut} {o : CopyOut.Op} {e : Event} {events : List Event}

/-- An operation for which no failure is scripted is answered from the stream. -/
theorem perform_copyOut (free : b.Unscripted r o) :
    (b.perform r o).1 = CopyOut.answer (b.copyOutOf r) o := by
  obtain ⟨c, -, ran⟩ := CopyOut.run_act (b.noted r o) r o
  exact perform_fst_of_run rfl free ran

/-- An operation that succeeds changes the stream as is due. -/
theorem of_perform_copyOut {x : CopyOut.Op.Answer Ref o} (performed : b.perform r o = (.ok x, c)) :
    CopyOut.answer (b.copyOutOf r) o = .ok x ∧ c.copyOutOf r = CopyOut.next (b.copyOutOf r) o := by
  obtain ⟨d, changed, ran⟩ := CopyOut.run_act (b.noted r o) r o
  obtain ⟨answered, rfl⟩ := of_perform_of_run performed ran
  exact ⟨answered, changed⟩

/-- A read that is scripted to fail leaves the stream as it is, and the next one is not. -/
theorem of_perform_readRow_fault {failure : Failure}
    (failed : b.perform r (.readRow : CopyOut.Op) = (.error (.fault failure), c)) :
    c.copyOutOf r = b.copyOutOf r ∧ c.Unscripted r (.readRow : CopyOut.Op) := by
  obtain ⟨same, free⟩ := same_of_fault failed
  exact ⟨by simp only [copyOutOf, same.copyOuts], free⟩

/-! ## Events -/

/-- An event is an operation on a stream that succeeds, or it is no such operation and leaves the
stream as it is. -/
theorem Step.copyOutOf_cases (has : b.Has r) (step : Step b e c) :
    (∃ (o : CopyOut.Op) (x : CopyOut.Op.Answer Ref o), e = .performed r o (.ok x) ∧
      CopyOut.answer (b.copyOutOf r) o = .ok x ∧
        c.copyOutOf r = CopyOut.next (b.copyOutOf r) o) ∨
    (∀ (o : CopyOut.Op) (x : CopyOut.Op.Answer Ref o), e ≠ .performed r o (.ok x)) ∧
      c.copyOutOf r = b.copyOutOf r := by
  rcases step.own_cases r nofun with ⟨o, x, rfl, performed⟩ | ⟨other, apart | same⟩
  · exact .inl ⟨o, x, rfl, of_perform_copyOut performed⟩
  · exact .inr ⟨other, step.kept.copyOuts.get_eq has apart⟩
  · exact .inr ⟨other, by simp only [copyOutOf, same.copyOuts]⟩

end Bench

namespace Event

/-- The row that a read hands out. -/
def delivers (r : Ref .copyOut) : Event → Option Bytes
  | .performed (a := .copyOut) q .readRow (.ok (some row)) => if q = r then some row else none
  | _ => none

/-- An event after which a stream has nothing more to hand out: a read that finds no row, or the end
by canceling. -/
inductive Ends (r : Ref .copyOut) : Event → Prop where
  | drained : Ends r (.performed r (.readRow : CopyOut.Op) (.ok none))
  | canceled : Ends r (.performed r (.cancel : CopyOut.Op) (.ok ()))

theorem delivers_eq_some {r : Ref .copyOut} {e : Event} {row : Bytes} :
    e.delivers r = some row ↔ e = .performed r (.readRow : CopyOut.Op) (.ok (some row)) := by
  constructor
  · intro eq
    unfold delivers at eq
    split at eq
    · next q row' =>
      by_cases same : q = r
      · subst same
        simpa using eq
      · simp [same] at eq
    · cases eq
  · rintro rfl
    simp [delivers]

end Event

/-- The rows that a stream has handed out, the first one first. -/
def delivered (r : Ref .copyOut) (events : List Event) : List Bytes :=
  events.filterMap (·.delivers r)

/-- The end of a stream has been found, or it has been canceled. -/
def Ended (r : Ref .copyOut) (events : List Event) : Prop :=
  ∃ e ∈ events, e.Ends r

section Recorded

variable {r : Ref .copyOut} {events : List Event} {e : Event}

@[simp] theorem delivered_snoc :
    delivered r (events ++ [e]) = delivered r events ++ (e.delivers r).toList :=
  filterMap_snoc _ events e

@[simp] theorem ended_snoc : Ended r (events ++ [e]) ↔ Ended r events ∨ e.Ends r := by
  simp [Ended, or_and_right, exists_or]

end Recorded

namespace Bench

variable {b c : Bench} {r : Ref .copyOut} {e : Event} {events : List Event} {table : List Bytes}

/-! ## The account of a stream -/

/-- What a stream holds agrees with what is on record. -/
structure Accounted (b : Bench) (r : Ref .copyOut) (table : List Bytes) (events : List Event) :
    Prop where
  rows : delivered r events ++ (b.copyOutOf r).pending = table
  handled : (b.copyOutOf r).handled = (delivered r events).length
  inactive : (b.copyOutOf r).active = false ↔ Ended r events

/-- An event that leaves the stream, hands out nothing and does not end it. -/
theorem Accounted.idle (accounted : b.Accounted r table events)
    (same : c.copyOutOf r = b.copyOutOf r) (nothing : e.delivers r = none) (goes : ¬ e.Ends r) :
    c.Accounted r table (events ++ [e]) := by
  constructor
  · simpa [same, nothing] using accounted.rows
  · simpa [same, nothing] using accounted.handled
  · simpa [same, goes] using accounted.inactive

/-- A read: the row goes from the pending ones to those that have been handed out. -/
theorem Accounted.read (accounted : b.Accounted r table events)
    (after : c.copyOutOf r = (CopyOut.readRow (b.copyOutOf r)).2) :
    c.Accounted r table (events ++
      [.performed r (.readRow : CopyOut.Op) (.ok (CopyOut.readRow (b.copyOutOf r)).1)]) := by
  obtain ⟨rows, handled, inactive⟩ := accounted
  rcases CopyOut.readRow_cases (b.copyOutOf r) with
    ⟨row, rest, active, pending, read⟩ | ⟨active, pending, read⟩ | ⟨ended, read⟩
  · have goes : ¬ Event.Ends r (.performed r (.readRow : CopyOut.Op) (.ok (some row))) := nofun
    rw [read] at after ⊢
    constructor
    · simp [after, Event.delivers, ← rows, pending]
    · simp [after, Event.delivers, handled]
    · simpa [after, goes] using inactive
  · have ends : Event.Ends r (.performed r (.readRow : CopyOut.Op) (.ok none)) := .drained
    rw [read] at after ⊢
    constructor
    · simpa [after, Event.delivers] using rows
    · simpa [after, Event.delivers] using handled
    · simp [after, ends]
  · have ends : Event.Ends r (.performed r (.readRow : CopyOut.Op) (.ok none)) := .drained
    rw [read] at after ⊢
    constructor
    · simpa [after, Event.delivers] using rows
    · simpa [after, Event.delivers] using handled
    · simp [after, ends, ended]

theorem Accounted.cancel (accounted : b.Accounted r table events)
    (after : c.copyOutOf r = { b.copyOutOf r with active := false }) :
    c.Accounted r table (events ++ [.performed r (.cancel : CopyOut.Op) (.ok ())]) := by
  have ends : Event.Ends r (.performed r (.cancel : CopyOut.Op) (.ok ())) := .canceled
  constructor
  · simpa [after, Event.delivers] using accounted.rows
  · simpa [after, Event.delivers] using accounted.handled
  · simp [after, ends]

/-- Every event keeps the account. -/
theorem Accounted.snoc (accounted : b.Accounted r table events) (has : b.Has r)
    (step : Step b e c) : c.Accounted r table (events ++ [e]) := by
  rcases step.copyOutOf_cases has with ⟨o, x, rfl, answered, after⟩ | ⟨other, same⟩
  · cases o with
    | readRow =>
      cases answered
      exact accounted.read after
    | cancel => exact accounted.cancel after
    | fieldCount | fieldFormat | format | handledRowCount | isActive =>
      exact accounted.idle after rfl nofun
  · refine accounted.idle same ?_ ?_
    · -- only a read of this stream hands out a row of it
      cases delivers : e.delivers r with
      | none => rfl
      | some row => exact absurd (Event.delivers_eq_some.mp delivers) (other .readRow _)
    · intro ends
      cases ends with
      | drained => exact other .readRow _ rfl
      | canceled => exact other .cancel _ rfl

theorem Accounted.steps (accounted : b.Accounted r table []) (has : b.Has r)
    (steps : Steps b events c) : c.Accounted r table events :=
  steps.recorded (I := fun events b => b.Accounted r table events) has accounted
    fun _ _ _ _ accounted has step => accounted.snoc has step

/-- A new stream has the whole table pending. -/
theorem accounted_newCopyOut (b : Bench) (journal : String) (fields : Int) (table : List Bytes) :
    (b.newCopyOut journal fields table).2.Accounted (b.newCopyOut journal fields table).1
      table [] := by
  have stream : (b.newCopyOut journal fields table).2.copyOutOf
      (b.newCopyOut journal fields table).1 =
        { probe := b.probes.size, fields, pending := table } := by
    simp [copyOutOf, newCopyOut, newProbe, Cells.add, Cells.get]
  constructor
  · simp [stream, delivered]
  · simp [stream, delivered]
  · simp [stream, Ended]

/-- A read of a stream that has not ended hands out the row that stands next in the table. -/
theorem Accounted.read_eq (accounted : b.Accounted r table events) (goes : ¬ Ended r events) :
    (CopyOut.readRow (b.copyOutOf r)).1 = table[(delivered r events).length]? := by
  have active : (b.copyOutOf r).active = true := by
    simpa [← accounted.inactive] using goes
  have next : table[(delivered r events).length]? = (b.copyOutOf r).pending.head? := by
    rw [← accounted.rows, List.getElem?_append_right (Nat.le_refl _)]
    simp [List.head?_eq_getElem?]
  rw [next]
  cases pending : (b.copyOutOf r).pending with
  | nil => simp [CopyOut.readRow_of_empty active pending]
  | cons row rest => simp [CopyOut.readRow_of_row active pending]

/-- What holds of a stream out of a table after a history. -/
structure DeliversOnce (b : Bench) (r : Ref .copyOut) (table : List Bytes) (events : List Event) :
    Prop where
  rows : delivered r events ++ (b.copyOutOf r).pending = table
  counts : b.Unscripted r (.handledRowCount : CopyOut.Op) →
    (b.perform r (.handledRowCount : CopyOut.Op)).1 = .ok ((delivered r events).length : Int)
  reads : ¬ Ended r events → b.Unscripted r (.readRow : CopyOut.Op) →
    (b.perform r (.readRow : CopyOut.Op)).1 = .ok table[(delivered r events).length]?
  /-- An end is for good: it stays on record. -/
  ended : Ended r events → b.Unscripted r (.readRow : CopyOut.Op) →
    (b.perform r (.readRow : CopyOut.Op)).1 = .ok none
  active : b.Unscripted r (.isActive : CopyOut.Op) →
    ∃ active, (b.perform r (.isActive : CopyOut.Op)).1 = .ok active ∧
      (active = false ↔ Ended r events)
  /-- A read that is scripted to fail hands out nothing and loses nothing: the next one is answered
  as this one would have been. -/
  faulted : ∀ failure c, b.perform r (.readRow : CopyOut.Op) = (.error (.fault failure), c) →
    c.copyOutOf r = b.copyOutOf r ∧
      delivered r (events ++ [.performed r (.readRow : CopyOut.Op) (.error (.fault failure))]) =
        delivered r events ∧
      (c.perform r (.readRow : CopyOut.Op)).1 = .ok (CopyOut.readRow (b.copyOutOf r)).1

/-- Whatever is done with a stream out of a table, and with whatever failures: the rows handed out
and those pending are the table, each row once and in order, the counter counts the rows handed out,
reads go on to the end of the table unless it is canceled, and after the end there is nothing. -/
theorem rows_delivered_once {start : Bench} {journal : String} {fields : Int}
    (history : Steps (start.newCopyOut journal fields table).2 events b) :
    b.DeliversOnce (start.newCopyOut journal fields table).1 table events := by
  have has : (start.newCopyOut journal fields table).2.Has
      (start.newCopyOut journal fields table).1 := Nat.lt_succ_self _
  have accounted := (accounted_newCopyOut start journal fields table).steps has history
  constructor
  · exact accounted.rows
  · intro free
    rw [perform_copyOut free]
    exact congrArg Except.ok accounted.handled
  · intro goes free
    rw [perform_copyOut free]
    exact congrArg Except.ok (accounted.read_eq goes)
  · intro ended free
    have inactive := accounted.inactive.mpr ended
    rw [perform_copyOut free]
    simp [CopyOut.answer, CopyOut.readRow_of_inactive inactive]
  · intro free
    exact ⟨_, perform_copyOut free, accounted.inactive⟩
  · intro failure c failed
    obtain ⟨same, free⟩ := of_perform_readRow_fault failed
    refine ⟨same, by simp [Event.delivers], ?_⟩
    rw [perform_copyOut free, same]
    rfl

/-- A stream of two rows: a read that is scripted to fail, a read, and then it is canceled. -/
theorem rows_delivered_once_when_canceled :
    let table : List Bytes := [#[1], #[2]]
    let r := (newCopyOut {} "main" 1 table).1
    let scripted := (newCopyOut {} "main" 1 table).2.failNext 0 "copy_out.read_from_copy"
      (.message ⟨0, []⟩ "lost")
    let failed := (scripted.perform r (.readRow : CopyOut.Op)).2
    let read := (failed.perform r (.readRow : CopyOut.Op)).2
    let canceled := (read.perform r (.cancel : CopyOut.Op)).2
    (failed.perform r (.readRow : CopyOut.Op)).1 = .ok (some #[1]) ∧
      (canceled.perform r (.readRow : CopyOut.Op)).1 = .ok none ∧
      (canceled.perform r (.handledRowCount : CopyOut.Op)).1 = .ok 1 ∧
      (canceled.copyOutOf r).pending = [#[2]] := by
  intro table r scripted failed read canceled
  have has : (newCopyOut {} "main" 1 table).2.Has r := Nat.lt_succ_self 0
  have scripts : Steps (newCopyOut {} "main" 1 table).2 _ scripted :=
    .one (.scripted (by decide) _ _)
  have fails := scripts.snoc (.performed (scripts.has has) (.readRow : CopyOut.Op))
  have reads := fails.snoc (.performed (fails.has has) (.readRow : CopyOut.Op))
  have cancels := reads.snoc (.performed (reads.has has) (.cancel : CopyOut.Op))
  have before := rows_delivered_once scripts
  have after := rows_delivered_once cancels
  refine ⟨?_, ?_, ?_, ?_⟩
  · exact (before.faulted _ failed rfl).2.2
  · exact after.ended ⟨_, List.mem_append_right _ (List.mem_singleton_self _), .canceled⟩ rfl
  · exact after.counts rfl
  · exact (List.append_right_inj [#[1]]).mp after.rows

end Bench
end Simulation
end Cancelable
