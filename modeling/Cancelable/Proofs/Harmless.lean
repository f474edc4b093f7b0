import Cancelable.Proofs.InPlace
import Cancelable.Proofs.Objects

/-!
# Failing does no harm

An operation fails at one of its three stages, and why it fails tells at which one: only what is
turned away is told that a large object is closed or a stream is not active, only the probe lets
scripted failures happen, and whatever else stops an operation comes up in its work, after it has
been recorded.  At none of them has a resource been changed.

Main statements: work is not stopped for a reason of the other stages (`Bench.late_of_run`), and
what is left by an operation that fails, with each change made at once
(`Bench.harmless_of_perform_error`).
-/

namespace Cancelable
namespace Simulation

/-! ## Why operations fail -/

/-- What an operation is told that is turned away before its probe is asked. -/
inductive Rejection.TurnsAway : Rejection → Prop where
  | closed (oid : Int) : TurnsAway (.closed oid)
  | inactive : TurnsAway .inactive

/-- Why an operation is stopped that has been recorded. -/
def Stop.Late : Stop → Prop
  | .fault _ => False
  | .rejected why => ¬ why.TurnsAway
  | .overflow => True

/-! ## Work is stopped late -/

namespace Work

variable {α β : Type} {w : Work α}

/-- Work that is stopped for no reason of an earlier stage. -/
def StopsLate (w : Work α) : Prop :=
  ∀ ⦃b stop⦄, w.run b = .error stop → stop.Late

/-- There is no reason to ask for if the work is never stopped. -/
theorem Succeeds.stopsLate (succeeds : w.Succeeds) : w.StopsLate := by
  intro b stop ran
  obtain ⟨x, c, done⟩ := succeeds b
  cases done.symm.trans ran

theorem StopsLate.bind {k : α → Work β} (first : w.StopsLate) (rest : ∀ x, (k x).StopsLate) :
    (w >>= k).StopsLate := by
  intro b stop ran
  cases result : w.run b with
  | error early =>
    cases (run_bind_of_error result).symm.trans ran
    exact first result
  | ok p => exact rest p.1 ((run_bind_of_ok result).symm.trans ran)

theorem stopsLate_lift {x : Except Stop α} (late : ∀ stop, x = .error stop → stop.Late) :
    StopsLate (liftM x) := by
  intro b stop ran
  cases x with
  | error early =>
    cases ran
    exact late _ rfl
  | ok x => cases ran

theorem stopsLate_reject {why : Rejection} (late : ¬ why.TurnsAway) :
    StopsLate (reject why : Work α) := by
  apply stopsLate_lift
  intro stop eq
  cases eq
  exact late

theorem stopsLate_require {condition : Bool} {why : Rejection} (late : ¬ why.TurnsAway) :
    StopsLate (require condition why) := by
  cases condition with
  | false => exact stopsLate_reject late
  | true => exact (succeeds_pure ()).stopsLate

theorem stopsLate_require_bind {condition : Bool} {why : Rejection} {k : Unit → Work β}
    (late : ¬ why.TurnsAway) (rest : (k ()).StopsLate) :
    StopsLate (require condition why >>= k) :=
  (stopsLate_require late).bind fun _ => rest

theorem stopsLate_get_bind {k : Bench → Work β} (rest : ∀ b, (k b).StopsLate) :
    StopsLate (get >>= k) :=
  StopsLate.bind (Succeeds.stopsLate fun b => ⟨b, b, rfl⟩) rest

/-- A sum is stopped only by leaving the integers of 64 bits. -/
theorem late_of_sum {m n : Int} {stop : Stop} (stopped : sum m n = .error stop) : stop.Late := by
  rw [sum] at stopped
  split at stopped
  · cases stopped
  · cases stopped
    trivial

end Work

open Work (StopsLate stopsLate_get_bind stopsLate_lift stopsLate_reject stopsLate_require_bind)

theorem stopsLate_fieldFormat (fields field : Int) : StopsLate (fieldFormat fields field) :=
  stopsLate_require_bind nofun (succeeds_pure _).stopsLate

theorem CopyIn.stopsLate_act (r : Ref .copyIn) (o : CopyIn.Op) : StopsLate (act r o) := by
  cases o with
  | writeRow | cancel => exact (succeeds_modify _).stopsLate
  | flush | format => exact (succeeds_pure _).stopsLate
  | finish | fieldCount | handledRowCount | isActive =>
    exact Work.Succeeds.stopsLate fun b => ⟨_, _, rfl⟩
  | fieldFormat field => exact stopsLate_get_bind fun b => stopsLate_fieldFormat _ field

theorem CopyOut.stopsLate_act (r : Ref .copyOut) (o : CopyOut.Op) : StopsLate (act r o) := by
  cases o with
  | cancel => exact (succeeds_modify _).stopsLate
  | format => exact (succeeds_pure _).stopsLate
  | readRow | fieldCount | handledRowCount | isActive =>
    exact Work.Succeeds.stopsLate fun b => ⟨_, _, rfl⟩
  | fieldFormat field => exact stopsLate_get_bind fun b => stopsLate_fieldFormat _ field

theorem CopyManager.succeeds_act (r : Ref .copyManager) (o : CopyManager.Op) :
    Work.Succeeds (act r o) := by
  cases o with
  | copyIn | copyOut | copyInBytes | copyOutBytes => exact fun b => ⟨_, _, rfl⟩

theorem Connection.succeeds_act (r : Ref .connection) (o : Connection.Op) :
    Work.Succeeds (act r o) := by
  cases o with
  | escapeIdentifier | escapeLiteral | parameterStatus | cancelQuery => exact succeeds_pure _
  | setPrepareThreshold => exact succeeds_modify _
  | notifications | backendPid | copyApi | fastpathApi | largeObjectApi | prepareThreshold =>
    exact fun b => ⟨_, _, rfl⟩

theorem Directory.stopsLate_act (r : Ref .directory) (o : Directory.Op) :
    StopsLate (act r o) := by
  cases o with
  | create mode => exact Work.Succeeds.stopsLate fun b => ⟨_, _, rfl⟩
  | openObject oid mode =>
    refine stopsLate_get_bind fun b => ?_
    cases found : (b.directories.get r.index).objects[oid]? with
    | some contents =>
      simp only [found]
      exact Work.Succeeds.stopsLate fun b => ⟨_, _, rfl⟩
    | none =>
      simp only [found]
      exact stopsLate_reject nofun
  | unlink oid =>
    refine stopsLate_get_bind fun b => ?_
    exact stopsLate_require_bind nofun (succeeds_modify _).stopsLate

theorem LargeObject.stopsLate_act (r : Ref .largeObject) (o : LargeObject.Op) :
    StopsLate (act r o) := by
  cases o with
  | oid | read | write | tell | size | copy =>
    exact Work.Succeeds.stopsLate fun b => ⟨_, _, rfl⟩
  | close => exact (succeeds_modify _).stopsLate
  | seek offset whence =>
    -- stopped by a sum that leaves the integers, or by a target before the first byte
    refine stopsLate_get_bind fun b => ?_
    refine StopsLate.bind (stopsLate_lift fun _ => Work.late_of_sum) fun target => ?_
    exact stopsLate_require_bind nofun (succeeds_modify _).stopsLate
  | truncate len =>
    refine stopsLate_get_bind fun b => ?_
    exact stopsLate_require_bind nofun (succeeds_modify _).stopsLate

theorem Fastpath.stopsLate_lookup (r : Ref .fastpath) (name : String) :
    StopsLate (lookup r name) := by
  intro b stop ran
  rw [run_lookup] at ran
  split at ran
  · cases ran
  · cases ran
    exact nofun

theorem Fastpath.late_of_sumFrom {args : List Fastpath.Arg} {total : Int} {stop : Stop}
    (stopped : sumFrom total args = .error stop) : stop.Late := by
  induction args generalizing total with
  | nil => cases stopped
  | cons arg rest ih =>
    rw [sumFrom] at stopped
    cases added : Work.sum total (Arg.number arg) with
    | error early =>
      rw [added] at stopped
      cases stopped
      exact Work.late_of_sum added
    | ok next =>
      rw [added] at stopped
      have later : sumFrom next rest = .error stop := stopped
      exact ih later

theorem Fastpath.stopsLate_act (r : Ref .fastpath) (o : Fastpath.Op) : StopsLate (act r o) := by
  cases o with
  | addFunction => exact (succeeds_modify _).stopsLate
  | functionId name => exact stopsLate_lookup r name
  | call fnid args =>
    refine stopsLate_get_bind fun b => ?_
    exact stopsLate_require_bind nofun (succeeds_pure _).stopsLate
  | getInteger name args =>
    refine (stopsLate_lookup r name).bind fun oid => ?_
    refine StopsLate.bind (stopsLate_lift fun _ => late_of_sumFrom) fun total => ?_
    exact stopsLate_require_bind nofun (succeeds_pure _).stopsLate
  | getLong name args | getOid name args =>
    exact (stopsLate_lookup r name).bind fun oid => stopsLate_lift fun _ => late_of_sumFrom
  | getData name args =>
    exact (stopsLate_lookup r name).bind fun oid => (succeeds_pure _).stopsLate

namespace Bench

variable {b c : Bench} {a : Algebra} {r : Ref a} {o : Op a} {stop : Stop}

theorem late_of_run (ran : (work r o).run b = .error stop) : stop.Late := by
  cases a with
  | connection => exact (Connection.succeeds_act r o).stopsLate ran
  | copyIn => exact CopyIn.stopsLate_act r o ran
  | copyOut => exact CopyOut.stopsLate_act r o ran
  | copyManager => exact (CopyManager.succeeds_act r o).stopsLate ran
  | fastpath => exact Fastpath.stopsLate_act r o ran
  | largeObject => exact LargeObject.stopsLate_act r o ran
  | directory => exact Directory.stopsLate_act r o ran

/-- A scripted failure changes no resource, and the next operation of its name is not to fail. -/
theorem same_of_fault {failure : Failure}
    (failed : b.perform r o = (.error (.fault failure), c)) : b.Same c ∧ c.Unscripted r o := by
  refine ⟨same_of_perform_error failed, ?_⟩
  cases fails_of_perform failed with
  | faulted => exact unscripted_forgotten b r o
  | stopped ran => exact absurd (late_of_run ran) id

/-! ## What is left -/

/-- What is left by an operation that has failed. -/
structure Harmless (b : Bench) {a : Algebra} (r : Ref a) (o : Op a) (stop : Stop) (c : Bench) :
    Prop where
  /-- It is the same if every change is made at once: then none has been made. -/
  in_place : b.performInPlace r o = (.error stop, c)
  same : b.Same c
  /-- A scripted failure is not recorded and happens once. -/
  fault : ∀ failure, stop = .fault failure →
    (b.probes.get (b.probeOf r)).fault? o.key = some failure ∧ c.journals = b.journals ∧
      ∀ i, (c.probes.get i).journal = (b.probes.get i).journal ∧
        ∀ key, (c.probes.get i).fault? key =
          if b.probeOf r = i ∧ o.key = key then none else (b.probes.get i).fault? key
  /-- What is turned away leaves the journals and the scripted failures, too. -/
  away : ∀ why, stop = .rejected why → why.TurnsAway → c = b
  /-- What is stopped for another reason has been recorded, and that is all. -/
  late : stop.Late → c = b.noted r o

theorem turnsAway_closed_or_inactive {why : Rejection} (away : b.turnsAway r o = some why) :
    why.TurnsAway := by
  cases a with
  | connection | copyOut | copyManager | fastpath | directory => cases away
  | largeObject =>
    simp only [turnsAway] at away
    split at away
    · cases away
      exact .closed _
    · cases away
  | copyIn =>
    -- only what feeds a stream needs it to be active
    cases o with
    | writeRow | flush | finish =>
      simp only [turnsAway, turnsAway.inactive] at away
      split at away
      · cases away
      · cases away
        exact .inactive
    | cancel | fieldCount | fieldFormat | format | handledRowCount | isActive => cases away

theorem journal_forgotten (b : Bench) (probe i : Nat) (op : String) :
    ((b.probes.set probe ((b.probes.get probe).forget op)).get i).journal =
      (b.probes.get i).journal := by
  rw [Cells.get_set]
  by_cases same : probe = i
  · simp [same, Probe.forget]
  · simp [same]

/-- Whatever operation fails, on whatever bench and for whatever reason: no resource has been
changed, and the reason tells what has become of the journals and of the scripted failures. -/
theorem harmless_of_perform_error (failed : b.perform r o = (.error stop, c)) :
    b.Harmless r o stop c := by
  have in_place : b.performInPlace r o = (.error stop, c) := by
    rw [performInPlace_eq, failed]
  have same : b.Same c := same_of_perform_error failed
  cases fails_of_perform failed with
  | away away =>
    refine ⟨in_place, same, nofun, fun _ _ _ => rfl, ?_⟩
    intro late
    exact absurd (turnsAway_closed_or_inactive away) late
  | faulted fault =>
    refine ⟨in_place, same, ?_, nofun, nofun⟩
    intro failure eq
    cases eq
    refine ⟨fault, rfl, ?_⟩
    intro i
    exact ⟨journal_forgotten b _ i _, fun key => fault?_forgotten b _ i _ key⟩
  | stopped ran =>
    -- so the reason is none that an earlier stage gives
    have late : stop.Late := late_of_run ran
    refine ⟨in_place, same, ?_, ?_, fun _ => rfl⟩
    · intro failure eq
      rw [eq] at late
      exact absurd late id
    · intro why eq away
      rw [eq] at late
      exact absurd away late

/-- A stream into a table of one field.  The format of another field is asked for twice, the first
time with a scripted failure, which hides that there is no such field.  And if the stream has been
canceled a row is turned away. -/
theorem harmless_of_perform_error_at_each_stage :
    let r := (newCopyIn {} "main" 1).1
    let scripted := (newCopyIn {} "main" 1).2.failNext 0 "copy_in.field_format"
      (.message ⟨0, []⟩ "lost")
    let failed := (scripted.perform r (.fieldFormat 1 : CopyIn.Op)).2
    let stopped := (failed.perform r (.fieldFormat 1 : CopyIn.Op)).2
    let canceled := (scripted.perform r (.cancel : CopyIn.Op)).2
    (scripted.Same failed ∧ failed.journals = scripted.journals ∧
        failed.Unscripted r (.fieldFormat 1 : CopyIn.Op)) ∧
      (failed.Same stopped ∧ stopped = failed.noted r (.fieldFormat 1 : CopyIn.Op)) ∧
      (canceled.perform r (.writeRow #[1] : CopyIn.Op)).2 = canceled := by
  intro r scripted failed stopped canceled
  have first : scripted.Harmless r (.fieldFormat 1 : CopyIn.Op) (.fault (.message ⟨0, []⟩ "lost"))
      failed := harmless_of_perform_error rfl
  have second : failed.Harmless r (.fieldFormat 1 : CopyIn.Op) (.rejected (.noField 1)) stopped :=
    harmless_of_perform_error rfl
  have third : canceled.Harmless r (.writeRow #[1] : CopyIn.Op) (.rejected .inactive)
      (canceled.perform r (.writeRow #[1] : CopyIn.Op)).2 :=
    harmless_of_perform_error rfl
  obtain ⟨-, journals, forgotten⟩ := first.fault _ rfl
  have free := (forgotten 0).2 "copy_in.field_format"
  rw [if_pos ⟨rfl, rfl⟩] at free
  have noted : stopped = failed.noted r (.fieldFormat 1 : CopyIn.Op) := second.late nofun
  have away : (canceled.perform r (.writeRow #[1] : CopyIn.Op)).2 = canceled :=
    third.away .inactive rfl .inactive
  exact ⟨⟨first.same, journals, free⟩, ⟨second.same, noted⟩, away⟩

end Bench
end Simulation
end Cancelable
