import Cancelable.Proofs.Sharing

/-!
# Rows written into a table

A stream into a table keeps the rows that it is given, and a mark that it is active.  Writing,
flushing and finishing are turned away by a stream that is not active, before its probe is asked, so
they leave no trace there: nothing is recorded and no scripted failure is used up.  Canceling and
the questions about the stream are not turned away.

What has been accepted is on record: the rows of the writes that have succeeded.  A stream is closed
by finishing it, which succeeds once, or by canceling it, and closed it stays.

Main statements: what an event makes of a stream (`Bench.Step.copyInOf_cases`), that nothing comes
into a closed stream any more (`Bench.Steps.shut`), and that in every history a stream has the rows
that were written while it was active (`Bench.rows_kept_while_active`).
-/

namespace Cancelable
namespace Simulation

/-! ## Answers and changes -/

namespace CopyIn

/-- What an operation on a stream is answered that does not turn it away. -/
def answer (s : CopyIn) : (o : CopyIn.Op) → Except Stop (CopyIn.Op.Answer Ref o)
  | .writeRow _ => .ok ()
  | .flush => .ok ()
  | .finish => .ok (s.rows.length : Int)
  | .cancel => .ok ()
  | .fieldCount => .ok s.fields
  | .fieldFormat field =>
    if 0 ≤ field ∧ field < s.fields then .ok 0 else .error (.rejected (.noField field))
  | .format => .ok 0
  | .handledRowCount => .ok (s.rows.length : Int)
  | .isActive => .ok s.active

/-- A stream after an operation on it that succeeds. -/
def next (s : CopyIn) : CopyIn.Op → CopyIn
  | .writeRow row => { s with latest := row :: s.latest }
  | .finish | .cancel => { s with active := false }
  | .flush | .fieldCount | .fieldFormat _ | .format | .handledRowCount | .isActive => s

/-- What only an active stream lets be done with it. -/
inductive Feeds : CopyIn.Op → Prop where
  | writeRow (row : Bytes) : Feeds (.writeRow row)
  | flush : Feeds .flush
  | finish : Feeds .finish

end CopyIn

namespace Bench

/-- A stream, as it is on the bench. -/
def copyInOf (b : Bench) (r : Ref .copyIn) : CopyIn :=
  b.copyIns.get r.index

def setCopyIn (b : Bench) (r : Ref .copyIn) (s : CopyIn) : Bench :=
  { b with copyIns := b.copyIns.set r.index s }

@[simp] theorem copyInOf_setCopyIn (b : Bench) (r : Ref .copyIn) (s : CopyIn) :
    (b.setCopyIn r s).copyInOf r = s := by
  simp [copyInOf, setCopyIn]

end Bench

namespace CopyIn

/-- The work of an operation comes to its answer and, if that is a value, to its change. -/
theorem run_act (b : Bench) (r : Ref .copyIn) (o : CopyIn.Op) :
    ∃ c : Bench, c.copyInOf r = next (b.copyInOf r) o ∧
      (act r o : Work (CopyIn.Op.Answer Ref o)).run b =
        (answer (b.copyInOf r) o).map fun x => (x, c) := by
  cases o with
  | writeRow row =>
    exact ⟨b.setCopyIn r (next (b.copyInOf r) (.writeRow row)), by simp, rfl⟩
  | cancel => exact ⟨b.setCopyIn r (next (b.copyInOf r) .cancel), by simp, rfl⟩
  | finish =>
    -- the rows are counted on the stream as it has become, which has the same ones
    let closed := next (b.copyInOf r) .finish
    have rows : ((b.setCopyIn r closed).copyInOf r).rows = (b.copyInOf r).rows := by
      simp [closed, next, rows]
    refine ⟨b.setCopyIn r closed, by simp [closed], ?_⟩
    rw [answer, ← rows]
    rfl
  | flush | fieldCount | format | handledRowCount | isActive => exact ⟨b, rfl, rfl⟩
  | fieldFormat field => exact ⟨b, rfl, run_fieldFormat _ field b⟩

end CopyIn

/-! ## Performing -/

namespace Bench

variable {b c : Bench} {r : Ref .copyIn} {o : CopyIn.Op} {e : Event} {events : List Event}

theorem turnsAway_of_active (active : (b.copyInOf r).active = true) : b.turnsAway r o = none := by
  rw [copyInOf] at active
  cases o with
  | writeRow | flush | finish => simp [turnsAway, turnsAway.inactive, active]
  | cancel | fieldCount | fieldFormat | format | handledRowCount | isActive => rfl

theorem turnsAway_of_shut (shut : (b.copyInOf r).active = false) (feeds : CopyIn.Feeds o) :
    b.turnsAway r o = some .inactive := by
  rw [copyInOf] at shut
  cases feeds with
  | writeRow | flush | finish => simp [turnsAway, turnsAway.inactive, shut]

/-- A stream that is not active turns away whatever would feed it, and trying leaves no trace. -/
theorem perform_of_shut (shut : (b.copyInOf r).active = false) (feeds : CopyIn.Feeds o) :
    b.perform r o = (.error (.rejected .inactive), b) :=
  perform_of_turnedAway (turnsAway_of_shut shut feeds)

/-- An operation that is not turned away, and for which no failure is scripted, is answered from the
stream. -/
theorem perform_copyIn (inside : b.turnsAway r o = none) (free : b.Unscripted r o) :
    (b.perform r o).1 = CopyIn.answer (b.copyInOf r) o := by
  obtain ⟨c, -, ran⟩ := CopyIn.run_act (b.noted r o) r o
  exact perform_fst_of_run inside free ran

/-- An operation that succeeds changes the stream as is due, and what feeds a stream succeeds on an
active one only. -/
theorem of_perform_copyIn {x : CopyIn.Op.Answer Ref o} (performed : b.perform r o = (.ok x, c)) :
    CopyIn.answer (b.copyInOf r) o = .ok x ∧ c.copyInOf r = CopyIn.next (b.copyInOf r) o ∧
      (CopyIn.Feeds o → (b.copyInOf r).active = true) := by
  obtain ⟨inside, -, -⟩ := perform_eq_ok_iff.mp performed
  obtain ⟨d, changed, ran⟩ := CopyIn.run_act (b.noted r o) r o
  obtain ⟨answered, rfl⟩ := of_perform_of_run performed ran
  refine ⟨answered, changed, ?_⟩
  intro feeds
  cases shut : (b.copyInOf r).active with
  | true => rfl
  | false =>
    rw [turnsAway_of_shut shut feeds] at inside
    cases inside

/-! ## Events -/

/-- An event is an operation on a stream that succeeds, or it is no such operation and leaves the
stream as it is. -/
theorem Step.copyInOf_cases (has : b.Has r) (step : Step b e c) :
    (∃ (o : CopyIn.Op) (x : CopyIn.Op.Answer Ref o), e = .performed r o (.ok x) ∧
      CopyIn.answer (b.copyInOf r) o = .ok x ∧ c.copyInOf r = CopyIn.next (b.copyInOf r) o ∧
        (CopyIn.Feeds o → (b.copyInOf r).active = true)) ∨
    (∀ (o : CopyIn.Op) (x : CopyIn.Op.Answer Ref o), e ≠ .performed r o (.ok x)) ∧
      c.copyInOf r = b.copyInOf r := by
  rcases step.own_cases r nofun with ⟨o, x, rfl, performed⟩ | ⟨other, apart | same⟩
  · exact .inl ⟨o, x, rfl, of_perform_copyIn performed⟩
  · exact .inr ⟨other, step.kept.copyIns.get_eq has apart⟩
  · exact .inr ⟨other, by simp only [copyInOf, same.copyIns]⟩

end Bench

namespace Event

variable {r : Ref .copyIn} {e : Event}

/-- The row of a write that succeeds. -/
def accepts (r : Ref .copyIn) : Event → Option Bytes
  | .performed (a := .copyIn) q (.writeRow row) (.ok _) => if q = r then some row else none
  | _ => none

/-- What finishing a stream is answered, if it succeeds. -/
def finishes (r : Ref .copyIn) : Event → Option Int
  | .performed (a := .copyIn) q .finish (.ok count) => if q = r then some count else none
  | _ => none

/-- An event that closes a stream: it is finished, or canceled. -/
inductive Closes (r : Ref .copyIn) : Event → Prop where
  | finished (count : Int) : Closes r (.performed r (.finish : CopyIn.Op) (.ok count))
  | canceled : Closes r (.performed r (.cancel : CopyIn.Op) (.ok ()))

theorem accepts_eq_some {row : Bytes} :
    e.accepts r = some row ↔ e = .performed r (.writeRow row : CopyIn.Op) (.ok ()) := by
  constructor
  · intro eq
    unfold accepts at eq
    split at eq
    · next q row' x =>
      by_cases same : q = r
      · subst same
        simpa using eq
      · simp [same] at eq
    · cases eq
  · rintro rfl
    simp [accepts]

theorem finishes_eq_some {count : Int} :
    e.finishes r = some count ↔ e = .performed r (.finish : CopyIn.Op) (.ok count) := by
  constructor
  · intro eq
    unfold finishes at eq
    split at eq
    · next q count' =>
      by_cases same : q = r
      · subst same
        simpa using eq
      · simp [same] at eq
    · cases eq
  · rintro rfl
    simp [finishes]

/-- An event that is no operation on a stream that succeeds: nothing is accepted, and it is neither
finished nor canceled. -/
theorem idle_of_ne
    (other : ∀ (o : CopyIn.Op) (x : CopyIn.Op.Answer Ref o), e ≠ .performed r o (.ok x)) :
    e.accepts r = none ∧ e.finishes r = none ∧ ¬ e.Closes r := by
  refine ⟨?_, ?_, ?_⟩
  · apply Option.eq_none_iff_forall_not_mem.mpr
    intro row accepts
    exact other _ _ (accepts_eq_some.mp accepts)
  · apply Option.eq_none_iff_forall_not_mem.mpr
    intro count finishes
    exact other _ _ (finishes_eq_some.mp finishes)
  · intro closes
    cases closes with
    | finished count => exact other .finish count rfl
    | canceled => exact other .cancel () rfl

end Event

/-- The rows that a stream has accepted, the first one first. -/
def accepted (r : Ref .copyIn) (events : List Event) : List Bytes :=
  events.filterMap (·.accepts r)

/-- What finishing a stream has been answered, each time that it has succeeded. -/
def finished (r : Ref .copyIn) (events : List Event) : List Int :=
  events.filterMap (·.finishes r)

/-- The stream has been finished, or canceled. -/
def Closed (r : Ref .copyIn) (events : List Event) : Prop :=
  ∃ e ∈ events, e.Closes r

section Recorded

variable {r : Ref .copyIn} {events : List Event} {e : Event}

@[simp] theorem accepted_snoc :
    accepted r (events ++ [e]) = accepted r events ++ (e.accepts r).toList :=
  filterMap_snoc _ events e

@[simp] theorem finished_snoc :
    finished r (events ++ [e]) = finished r events ++ (e.finishes r).toList :=
  filterMap_snoc _ events e

@[simp] theorem closed_snoc : Closed r (events ++ [e]) ↔ Closed r events ∨ e.Closes r := by
  simp [Closed, or_and_right, exists_or]

/-- Finishing closes, so a stream that has not been closed has not been finished. -/
theorem finished_eq_nil (goes : ¬ Closed r events) : finished r events = [] := by
  rw [finished, List.filterMap_eq_nil_iff]
  intro e mem
  apply Option.eq_none_iff_forall_not_mem.mpr
  intro count finishes
  obtain rfl := Event.finishes_eq_some.mp finishes
  exact goes ⟨_, mem, .finished count⟩

end Recorded

namespace Bench

variable {b c : Bench} {r : Ref .copyIn} {e : Event} {events : List Event}

/-! ## A closed stream -/

/-- A closed stream stays closed, and has the rows that it had. -/
theorem Step.shut (has : b.Has r) (shut : (b.copyInOf r).active = false) (step : Step b e c) :
    (c.copyInOf r).active = false ∧ (c.copyInOf r).rows = (b.copyInOf r).rows ∧
      e.accepts r = none ∧ e.finishes r = none := by
  rcases step.copyInOf_cases has with ⟨o, x, rfl, -, after, feeding⟩ | ⟨other, same⟩
  · rw [after]
    cases o with
    | writeRow row => simp [feeding (.writeRow row)] at shut
    | finish => simp [feeding .finish] at shut
    | flush => simp [feeding .flush] at shut
    | cancel => exact ⟨rfl, rfl, rfl, rfl⟩
    | fieldCount | fieldFormat | format | handledRowCount | isActive =>
      exact ⟨shut, rfl, rfl, rfl⟩
  · obtain ⟨accepts, finishes, -⟩ := Event.idle_of_ne other
    rw [same]
    exact ⟨shut, rfl, accepts, finishes⟩

theorem Steps.shut (has : b.Has r) (shut : (b.copyInOf r).active = false)
    (steps : Steps b events c) :
    (c.copyInOf r).active = false ∧ (c.copyInOf r).rows = (b.copyInOf r).rows ∧
      accepted r events = [] ∧ finished r events = [] := by
  induction steps with
  | nil => exact ⟨shut, rfl, rfl, rfl⟩
  | snoc before step ih =>
    obtain ⟨still, rows, noRows, noCounts⟩ := ih
    obtain ⟨stays, same, accepts, finishes⟩ := step.shut (before.has has) still
    exact ⟨stays, same.trans rows, by simp [noRows, accepts], by simp [noCounts, finishes]⟩

/-! ## The account of a stream -/

/-- What a stream holds agrees with what is on record. -/
structure Filled (b : Bench) (r : Ref .copyIn) (events : List Event) : Prop where
  rows : (b.copyInOf r).rows = accepted r events
  shut : (b.copyInOf r).active = false ↔ Closed r events
  once : (finished r events).length ≤ 1
  value : ∀ count ∈ finished r events, count = (accepted r events).length

/-- As long as a stream is active it has not been finished. -/
theorem Filled.unfinished (filled : b.Filled r events) (active : (b.copyInOf r).active = true) :
    finished r events = [] := by
  apply finished_eq_nil
  simp [← filled.shut, active]

/-- An event that leaves the rows, and the stream as active as it is on record. -/
theorem Filled.idle (filled : b.Filled r events) (same : (c.copyInOf r).rows = (b.copyInOf r).rows)
    (accepts : e.accepts r = none) (finishes : e.finishes r = none)
    (shut : (c.copyInOf r).active = false ↔ (b.copyInOf r).active = false ∨ e.Closes r) :
    c.Filled r (events ++ [e]) := by
  constructor
  · simpa [same, accepts] using filled.rows
  · simpa [filled.shut] using shut
  · simpa [finishes] using filled.once
  · simpa [finishes, accepts] using filled.value

theorem Filled.write {row : Bytes} (filled : b.Filled r events)
    (active : (b.copyInOf r).active = true)
    (after : c.copyInOf r = CopyIn.next (b.copyInOf r) (.writeRow row)) :
    c.Filled r (events ++ [.performed r (.writeRow row : CopyIn.Op) (.ok ())]) := by
  have goes : ¬ Event.Closes r (.performed r (.writeRow row : CopyIn.Op) (.ok ())) := nofun
  have rows : (c.copyInOf r).rows = (b.copyInOf r).rows ++ [row] := by
    simp [after, CopyIn.next, CopyIn.rows]
  constructor
  · simp [rows, Event.accepts, filled.rows]
  · simpa [after, CopyIn.next, goes] using filled.shut
  · simp [Event.finishes, filled.unfinished active]
  · simp [Event.finishes, filled.unfinished active]

theorem Filled.finish {count : Int} (filled : b.Filled r events)
    (active : (b.copyInOf r).active = true) (rows : count = ((b.copyInOf r).rows.length : Int))
    (after : c.copyInOf r = CopyIn.next (b.copyInOf r) .finish) :
    c.Filled r (events ++ [.performed r (.finish : CopyIn.Op) (.ok count)]) := by
  have closes : Event.Closes r (.performed r (.finish : CopyIn.Op) (.ok count)) := .finished count
  have same : (c.copyInOf r).rows = (b.copyInOf r).rows := by
    simp [after, CopyIn.next, CopyIn.rows]
  constructor
  · simpa [same, Event.accepts] using filled.rows
  · simp [after, CopyIn.next, closes]
  · simp [Event.finishes, filled.unfinished active]
  · simp [Event.finishes, Event.accepts, filled.unfinished active, rows, filled.rows]

/-- Every event keeps the account. -/
theorem Filled.snoc (filled : b.Filled r events) (has : b.Has r) (step : Step b e c) :
    c.Filled r (events ++ [e]) := by
  rcases step.copyInOf_cases has with ⟨o, x, rfl, answered, after, feeding⟩ | ⟨other, same⟩
  · cases o with
    | writeRow row => exact filled.write (feeding (.writeRow row)) after
    | finish =>
      have count : x = ((b.copyInOf r).rows.length : Int) := (Except.ok.inj answered).symm
      exact filled.finish (feeding .finish) count after
    | cancel =>
      have closes : Event.Closes r (.performed r (.cancel : CopyIn.Op) (.ok ())) := .canceled
      refine filled.idle ?_ rfl rfl ?_
      · simp [after, CopyIn.next, CopyIn.rows]
      · simp [after, CopyIn.next, closes]
    | flush | fieldCount | fieldFormat | format | handledRowCount | isActive =>
      refine filled.idle (by rw [after]; rfl) rfl rfl ?_
      rw [after]
      exact ⟨.inl, fun either => either.elim id nofun⟩
  · obtain ⟨accepts, finishes, goes⟩ := Event.idle_of_ne other
    exact filled.idle (by rw [same]) accepts finishes (by simp [same, goes])

theorem Filled.steps (filled : b.Filled r []) (has : b.Has r) (steps : Steps b events c) :
    c.Filled r events :=
  steps.recorded (I := fun events b => b.Filled r events) has filled
    fun _ _ _ _ filled has step => filled.snoc has step

/-- A new stream is empty and active. -/
theorem filled_newCopyIn (b : Bench) (journal : String) (fields : Int) :
    (b.newCopyIn journal fields).2.Filled (b.newCopyIn journal fields).1 [] := by
  have stream : (b.newCopyIn journal fields).2.copyInOf (b.newCopyIn journal fields).1 =
      { probe := b.probes.size, fields } := by
    simp [copyInOf, newCopyIn, newProbe, Cells.add, Cells.get]
  constructor
  · simp [stream, accepted, CopyIn.rows]
  · simp [stream, Closed]
  · simp [finished]
  · simp [finished]

/-- What holds of a stream into a table after a history. -/
structure KeepsWritten (b : Bench) (r : Ref .copyIn) (events : List Event) : Prop where
  rows : (b.copyInOf r).rows = accepted r events
  counts : b.Unscripted r (.handledRowCount : CopyIn.Op) →
    (b.perform r (.handledRowCount : CopyIn.Op)).1 = .ok ((accepted r events).length : Int)
  /-- As long as a stream has not been closed, rows are accepted and finishing succeeds. -/
  writes : ¬ Closed r events → ∀ row, b.Unscripted r (.writeRow row : CopyIn.Op) →
    (b.perform r (.writeRow row : CopyIn.Op)).1 = .ok ()
  finish : ¬ Closed r events → b.Unscripted r (.finish : CopyIn.Op) →
    (b.perform r (.finish : CopyIn.Op)).1 = .ok ((accepted r events).length : Int)
  once : (finished r events).length ≤ 1
  value : ∀ count ∈ finished r events, count = (accepted r events).length
  /-- Whatever comes later, a closed stream accepts nothing and is not finished, and what would feed
  it leaves the bench as it is, with its journals and scripted failures. -/
  shut : Closed r events → ∀ later c, Steps b later c →
    accepted r later = [] ∧ finished r later = [] ∧ (c.copyInOf r).rows = (b.copyInOf r).rows ∧
      ∀ o : CopyIn.Op, CopyIn.Feeds o → c.perform r o = (.error (.rejected .inactive), c)

/-- Whatever is done with a stream into a table, and with whatever failures: it has the rows of the
writes that have succeeded, in order, and counts them; it is finished once at most, with the number
of its rows, and not after it has been canceled; and once closed it takes nothing, without a
trace. -/
theorem rows_kept_while_active {start : Bench} {journal : String} {fields : Int}
    (history : Steps (start.newCopyIn journal fields).2 events b) :
    b.KeepsWritten (start.newCopyIn journal fields).1 events := by
  have has : (start.newCopyIn journal fields).2.Has (start.newCopyIn journal fields).1 :=
    Nat.lt_succ_self _
  have filled := (filled_newCopyIn start journal fields).steps has history
  have active (goes : ¬ Closed (start.newCopyIn journal fields).1 events) :
      (b.copyInOf (start.newCopyIn journal fields).1).active = true := by
    simpa [← filled.shut] using goes
  constructor
  · exact filled.rows
  · intro free
    rw [perform_copyIn rfl free, ← filled.rows]
    rfl
  · intro goes row free
    exact perform_copyIn (turnsAway_of_active (active goes)) free
  · intro goes free
    rw [perform_copyIn (turnsAway_of_active (active goes)) free, ← filled.rows]
    rfl
  · exact filled.once
  · exact filled.value
  · intro closed later c steps
    obtain ⟨still, rows, noRows, noCounts⟩ :=
      steps.shut (history.has has) (filled.shut.mpr closed)
    exact ⟨noRows, noCounts, rows, fun o feeds => perform_of_shut still feeds⟩

/-- A row and the end.  A flush that is scripted to fail is turned away afterwards, and leaves even
its scripted failure where it is. -/
theorem rows_kept_while_active_to_end :
    let r := (newCopyIn {} "main" 1).1
    let scripted := (newCopyIn {} "main" 1).2.failNext 0 "copy_in.flush_copy"
      (.message ⟨0, []⟩ "lost")
    let written := (scripted.perform r (.writeRow #[1] : CopyIn.Op)).2
    let ended := (written.perform r (.finish : CopyIn.Op)).2
    (ended.copyInOf r).rows = [#[1]] ∧
      (ended.perform r (.handledRowCount : CopyIn.Op)).1 = .ok 1 ∧
      ended.perform r (.flush : CopyIn.Op) = (.error (.rejected .inactive), ended) := by
  intro r scripted written ended
  have has : (newCopyIn {} "main" 1).2.Has r := Nat.lt_succ_self 0
  have scripts : Steps (newCopyIn {} "main" 1).2 _ scripted := .one (.scripted (by decide) _ _)
  have writes := scripts.snoc (.performed (scripts.has has) (.writeRow #[1] : CopyIn.Op))
  have ends := writes.snoc (.performed (writes.has has) (.finish : CopyIn.Op))
  have keeps := rows_kept_while_active ends
  have closes : Event.Closes r (.performed r (.finish : CopyIn.Op) (written.perform r .finish).1) :=
    .finished 1
  obtain ⟨-, -, -, away⟩ := keeps.shut (closed_snoc.mpr (.inr closes)) [] ended .nil
  exact ⟨keeps.rows, keeps.counts rfl, away .flush .flush⟩

end Bench
end Simulation
end Cancelable
