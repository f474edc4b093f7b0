import Cancelable.Simulation.Perform

/-!
# What performing an operation does

An operation on a simulated resource is performed in stages, and only the last of them, its work,
changes a resource.  So an operation succeeds exactly if it is not turned away, no failure has been
scripted for it, and its work yields a value; and what all work keeps is kept by performing an
operation, whether it succeeds or not.

Main statements: when an operation succeeds, and with what (`Bench.perform_eq_ok_iff`); what is kept
(`Bench.holds_of_perform`).
-/

namespace Cancelable
namespace Simulation

/-! ## What work keeps -/

namespace Work

variable {α β : Type} {I : Bench → Prop}

/-- A condition on the bench that holds before the work holds after it, if the work has not
stopped. -/
def Keeps (I : Bench → Prop) (w : Work α) : Prop :=
  ∀ ⦃b x b'⦄, I b → w.run b = .ok (x, b') → I b'

theorem keeps_pure (x : α) : Keeps I (pure x) := by
  intro b y b' holds ran
  cases ran
  exact holds

theorem keeps_get : Keeps I get := by
  intro b x b' holds ran
  cases ran
  exact holds

theorem keeps_bind {w : Work α} {k : α → Work β} (first : Keeps I w) (rest : ∀ x, Keeps I (k x)) :
    Keeps I (w >>= k) := by
  intro b y b' holds ran
  rw [StateT.run_bind] at ran
  cases result : w.run b with
  | error stop =>
    rw [result] at ran
    cases ran
  | ok p =>
    rw [result] at ran
    exact rest p.1 (first holds result) ran

/-- Work that goes on from the bench it has looked at. -/
theorem keeps_get_bind {k : Bench → Work α}
    (rest : ∀ ⦃b x b'⦄, I b → (k b).run b = .ok (x, b') → I b') : Keeps I (get >>= k) :=
  fun _ _ _ holds ran => rest holds ran

theorem keeps_modify {f : Bench → Bench} (step : ∀ b, I b → I (f b)) : Keeps I (modify f) := by
  intro b x b' holds ran
  cases ran
  exact step b holds

theorem keeps_modifyGet {f : Bench → α × Bench} (step : ∀ b, I b → I (f b).2) :
    Keeps I (modifyGet f) := by
  intro b x b' holds ran
  have eq : f b = (x, b') := Except.ok.inj ran
  have kept := step b holds
  rw [eq] at kept
  exact kept

theorem keeps_reject (why : Rejection) : Keeps I (reject why : Work α) := by
  intro b x b' _ ran
  cases ran

theorem keeps_require (condition : Bool) (why : Rejection) : Keeps I (require condition why) := by
  cases condition with
  | false => exact keeps_reject why
  | true => exact keeps_pure ()

/-- A computation that does not see the bench. -/
theorem keeps_lift (x : Except Stop α) : Keeps I (liftM x : Work α) := by
  intro b y b' holds ran
  cases x with
  | error stop => cases ran
  | ok z =>
    cases ran
    exact holds

/-- Work that only looks at the bench. -/
theorem keeps_read (f : Bench → α) : Keeps I (do return f (← get)) :=
  keeps_bind keeps_get fun b => keeps_pure (f b)

end Work

/-! ## What work is made of

The work of an operation replaces its own resource by one with the same probe, and it gives out new
ones.  So a condition is kept by it that is kept by each of these changes. -/

open Work (keeps_bind keeps_get keeps_get_bind keeps_lift keeps_modify keeps_modifyGet keeps_pure
  keeps_read keeps_reject keeps_require)

section Works

variable {I : Bench → Prop}

theorem keeps_fieldFormat (fields field : Int) : Work.Keeps I (fieldFormat fields field) :=
  keeps_bind (keeps_require _ _) fun _ => keeps_pure _

/-- The format of a field is found without touching the bench. -/
theorem run_fieldFormat (fields field : Int) (b : Bench) :
    (fieldFormat fields field : Work Int).run b =
      (if 0 ≤ field ∧ field < fields then (.ok 0 : Except Stop Int)
        else .error (.rejected (.noField field))).map fun x => (x, b) := by
  by_cases inside : 0 ≤ field ∧ field < fields
  · simp only [fieldFormat, Work.require, inside]
    rfl
  · simp only [fieldFormat, Work.require, inside]
    rfl

theorem CopyIn.keeps_act {r : Ref .copyIn}
    (replaced : ∀ b x, x.probe = (b.copyIns.get r.index).probe → I b →
      I { b with copyIns := b.copyIns.set r.index x }) (o : CopyIn.Op) :
    Work.Keeps I (act r o) := by
  cases o with
  | writeRow | cancel => exact keeps_modify fun b => replaced b _ rfl
  | flush | format => exact keeps_pure _
  | finish => exact keeps_bind (keeps_modify fun b => replaced b _ rfl) fun _ => keeps_read _
  | fieldCount | handledRowCount | isActive => exact keeps_read _
  | fieldFormat field => exact keeps_bind keeps_get fun _ => keeps_fieldFormat _ _

/-- Reading a row does not change the probe. -/
@[simp] theorem CopyOut.probe_readRow (s : CopyOut) : (readRow s).2.probe = s.probe := by
  unfold readRow
  split
  · split <;> rfl
  · rfl

theorem CopyOut.keeps_act {r : Ref .copyOut}
    (replaced : ∀ b x, x.probe = (b.copyOuts.get r.index).probe → I b →
      I { b with copyOuts := b.copyOuts.set r.index x }) (o : CopyOut.Op) :
    Work.Keeps I (act r o) := by
  cases o with
  | readRow =>
    -- what is put back is the stream that has been looked at
    refine keeps_get_bind fun b x c holds ran => ?_
    cases ran
    exact replaced b _ (probe_readRow _) holds
  | cancel => exact keeps_modify fun b => replaced b _ rfl
  | format => exact keeps_pure _
  | fieldCount | handledRowCount | isActive => exact keeps_read _
  | fieldFormat field => exact keeps_bind keeps_get fun _ => keeps_fieldFormat _ _

theorem CopyManager.keeps_act {r : Ref .copyManager}
    (copyIn : ∀ b journal fields, I b → I (b.newCopyIn journal fields).2)
    (copyOut : ∀ b journal fields rows, I b → I (b.newCopyOut journal fields rows).2)
    (o : CopyManager.Op) : Work.Keeps I (act r o) := by
  cases o with
  | copyIn sql => exact keeps_modifyGet fun b => copyIn b _ _
  | copyOut sql => exact keeps_modifyGet fun b => copyOut b _ _ _
  | copyInBytes sql data => exact keeps_pure _
  | copyOutBytes sql => exact keeps_read _

theorem Fastpath.keeps_lookup (r : Ref .fastpath) (name : String) :
    Work.Keeps I (lookup r name) := by
  refine keeps_bind keeps_get fun b => ?_
  cases (b.fastpaths.get r.index).functions[name]? with
  | some oid => exact keeps_pure _
  | none => exact keeps_reject _

/-- A name is looked up without touching the bench. -/
theorem Fastpath.run_lookup (r : Ref .fastpath) (name : String) (b : Bench) :
    (lookup r name : Work Int).run b =
      match (b.fastpaths.get r.index).functions[name]? with
      | some oid => .ok (oid, b)
      | none => .error (.rejected (.unknownName name)) := by
  simp only [lookup, StateT.run_bind, StateT.run_get, pure_bind]
  cases (b.fastpaths.get r.index).functions[name]? with
  | some oid => rfl
  | none => rfl

theorem Fastpath.keeps_act {r : Ref .fastpath}
    (replaced : ∀ b x, x.probe = (b.fastpaths.get r.index).probe → I b →
      I { b with fastpaths := b.fastpaths.set r.index x })
    (o : Fastpath.Op) : Work.Keeps I (act r o) := by
  cases o with
  | addFunction name oid => exact keeps_modify fun b => replaced b _ rfl
  | functionId name => exact keeps_lookup r name
  | call fnid args =>
    refine keeps_bind keeps_get fun _ => ?_
    exact keeps_bind (keeps_require _ _) fun _ => keeps_pure _
  | getInteger name args =>
    refine keeps_bind (keeps_lookup r name) fun _ => ?_
    refine keeps_bind (keeps_lift _) fun total => ?_
    exact keeps_bind (keeps_require _ _) fun _ => keeps_pure _
  | getLong name args | getOid name args =>
    exact keeps_bind (keeps_lookup r name) fun _ => keeps_lift _
  | getData name args => exact keeps_bind (keeps_lookup r name) fun _ => keeps_pure _

theorem Directory.keeps_act {r : Ref .directory}
    (replaced : ∀ b x, x.probe = (b.directories.get r.index).probe → I b →
      I { b with directories := b.directories.set r.index x })
    (contents : ∀ b, I b → I b.newContents.2)
    (object : ∀ b oid contents, I b →
      I (b.newLargeObject (b.directories.get r.index).probe oid contents).2)
    (o : Directory.Op) : Work.Keeps I (act r o) := by
  cases o with
  | create mode =>
    refine keeps_bind (keeps_modifyGet contents) fun _ => ?_
    refine keeps_bind keeps_get fun _ => ?_
    exact keeps_bind (keeps_modify fun b => replaced b _ rfl) fun _ => keeps_pure _
  | openObject oid mode =>
    refine keeps_get_bind fun b x c holds ran => ?_
    cases found : (b.directories.get r.index).objects[oid]? with
    | some contents =>
      simp only [found] at ran
      cases ran
      exact object b oid contents holds
    | none =>
      simp only [found] at ran
      cases ran
  | unlink oid =>
    refine keeps_bind keeps_get fun _ => ?_
    exact keeps_bind (keeps_require _ _) fun _ => keeps_modify fun b => replaced b _ rfl

theorem Connection.keeps_act {r : Ref .connection}
    (replaced : ∀ b x, x.probe = (b.connections.get r.index).probe → I b →
      I { b with connections := b.connections.set r.index x })
    (o : Connection.Op) : Work.Keeps I (act r o) := by
  cases o with
  | backendPid | copyApi | fastpathApi | largeObjectApi | prepareThreshold => exact keeps_read _
  | notifications =>
    refine keeps_bind keeps_get fun _ => ?_
    exact keeps_bind (keeps_modify fun b => replaced b _ rfl) fun _ => keeps_pure _
  | escapeIdentifier | escapeLiteral | parameterStatus | cancelQuery => exact keeps_pure _
  | setPrepareThreshold => exact keeps_modify fun b => replaced b _ rfl

end Works

/-! ## The stages -/

namespace Bench

variable {b b' : Bench} {a : Algebra} {r : Ref a} {o : Op a}

/-- No failure is scripted for an operation. -/
def Unscripted (b : Bench) {a : Algebra} (r : Ref a) (o : Op a) : Prop :=
  (b.probes.get (b.probeOf r)).fault? o.key = none

/-- The bench on which an operation has been recorded. -/
def noted (b : Bench) {a : Algebra} (r : Ref a) (o : Op a) : Bench :=
  b.record (b.probes.get (b.probeOf r)).journal o.key o.detail

/-- An operation that is turned away leaves no trace. -/
theorem perform_of_turnedAway {why : Rejection} (away : b.turnsAway r o = some why) :
    b.perform r o = (.error (.rejected why), b) := by
  simp [perform, away]

/-- A scripted failure is used up. -/
theorem perform_of_fault {failure : Failure} (inside : b.turnsAway r o = none)
    (fault : (b.probes.get (b.probeOf r)).fault? o.key = some failure) :
    b.perform r o = (.error (.fault failure),
      { b with
        probes := b.probes.set (b.probeOf r)
          ((b.probes.get (b.probeOf r)).forget o.key) }) := by
  simp [perform, hit, inside, fault]

theorem perform_of_run_ok {x : Op.Answer Ref o} (inside : b.turnsAway r o = none)
    (unscripted : b.Unscripted r o) (ran : (work r o).run (b.noted r o) = .ok (x, b')) :
    b.perform r o = (.ok x, b') := by
  rw [Unscripted] at unscripted
  rw [noted] at ran
  simp [perform, hit, inside, unscripted, ran]

/-- Work that stops leaves the record of the operation and nothing else. -/
theorem perform_of_run_error {stop : Stop} (inside : b.turnsAway r o = none)
    (unscripted : b.Unscripted r o) (ran : (work r o).run (b.noted r o) = .error stop) :
    b.perform r o = (.error stop, b.noted r o) := by
  rw [Unscripted] at unscripted
  rw [noted] at ran ⊢
  simp [perform, hit, inside, unscripted, ran]

/-- An operation is answered what its work comes to. -/
theorem perform_fst_of_run {answer : Except Stop (Op.Answer Ref o)}
    (inside : b.turnsAway r o = none) (unscripted : b.Unscripted r o)
    (ran : (work r o).run (b.noted r o) = answer.map fun x => (x, b')) :
    (b.perform r o).1 = answer := by
  cases answer with
  | error stop => simp [perform_of_run_error inside unscripted ran]
  | ok x => simp [perform_of_run_ok inside unscripted ran]

/-- What has been used up is not scripted any more. -/
theorem unscripted_forgotten (b : Bench) (r : Ref a) (o : Op a) :
    Bench.Unscripted
      { b with probes := b.probes.set (b.probeOf r) ((b.probes.get (b.probeOf r)).forget o.key) }
      r o := by
  have probe : Bench.probeOf
      { b with probes := b.probes.set (b.probeOf r) ((b.probes.get (b.probeOf r)).forget o.key) }
      r = b.probeOf r := by
    cases a <;> rfl
  rw [Unscripted, probe, Cells.get_set_self, Probe.fault?_forget, if_pos rfl]

/-- The ways in which an operation fails, and what each of them leaves. -/
inductive Fails (b : Bench) {a : Algebra} (r : Ref a) (o : Op a) : Stop → Bench → Prop where
  | away {why : Rejection} (away : b.turnsAway r o = some why) : Fails b r o (.rejected why) b
  | faulted {failure : Failure}
      (fault : (b.probes.get (b.probeOf r)).fault? o.key = some failure) :
    Fails b r o (.fault failure)
      { b with probes := b.probes.set (b.probeOf r) ((b.probes.get (b.probeOf r)).forget o.key) }
  | stopped {stop : Stop} (ran : (work r o).run (b.noted r o) = .error stop) :
    Fails b r o stop (b.noted r o)

theorem fails_of_perform {stop : Stop} (failed : b.perform r o = (.error stop, b')) :
    b.Fails r o stop b' := by
  cases away : b.turnsAway r o with
  | some why =>
    cases (perform_of_turnedAway away).symm.trans failed
    exact .away away
  | none =>
    cases fault : (b.probes.get (b.probeOf r)).fault? o.key with
    | some failure =>
      cases (perform_of_fault away fault).symm.trans failed
      exact .faulted fault
    | none =>
      cases ran : (work r o).run (b.noted r o) with
      | error stop =>
        cases (perform_of_run_error away fault ran).symm.trans failed
        exact .stopped ran
      | ok p => cases (perform_of_run_ok away fault ran).symm.trans failed

/-- An operation succeeds exactly if it is not turned away, no failure is scripted for it, and its
work yields the value, on the bench on which it has been recorded. -/
theorem perform_eq_ok_iff {x : Op.Answer Ref o} :
    b.perform r o = (.ok x, b') ↔
      b.turnsAway r o = none ∧
        (b.probes.get (b.probeOf r)).fault? o.key = none ∧
          (work r o).run (b.record (b.probes.get (b.probeOf r)).journal o.key o.detail) =
            .ok (x, b') := by
  -- the stages in their order; each of them can be the last
  cases away : b.turnsAway r o with
  | some why => simp [perform, away]
  | none =>
    cases fault : (b.probes.get (b.probeOf r)).fault? o.key with
    | some failure => simp [perform, hit, away, fault]
    | none =>
      cases ran : (work r o).run
          (b.record (b.probes.get (b.probeOf r)).journal o.key o.detail) with
      | error stop => simp [perform, hit, away, fault, ran]
      | ok p => simp [perform, hit, away, fault, ran, Prod.ext_iff]

/-- An operation that succeeds leaves the bench that its work comes to. -/
theorem of_perform_of_run {c : Bench} {answer : Except Stop (Op.Answer Ref o)} {x : Op.Answer Ref o}
    (performed : b.perform r o = (.ok x, b'))
    (ran : (work r o).run (b.noted r o) = answer.map fun y => (y, c)) :
    answer = .ok x ∧ b' = c := by
  obtain ⟨-, -, ran'⟩ := perform_eq_ok_iff.mp performed
  have both := ran.symm.trans ran'
  cases answer with
  | error stop => cases both
  | ok y =>
    cases both
    exact ⟨rfl, rfl⟩

/-- What the work of an operation keeps, and what has to do neither with the scripted failures nor
with the journals, is kept by performing the operation. -/
theorem holds_of_perform {I : Bench → Prop} (holds : I b)
    (probes : ∀ (b : Bench) probes, I b → I { b with probes })
    (journals : ∀ (b : Bench) journals, I b → I { b with journals })
    (keeps : Work.Keeps I (work r o)) : I (b.perform r o).2 := by
  have recorded : I (b.record (b.probes.get (b.probeOf r)).journal o.key o.detail) :=
    journals _ _ holds
  cases away : b.turnsAway r o with
  | some why => simpa [perform, away] using holds
  | none =>
    cases fault : (b.probes.get (b.probeOf r)).fault? o.key with
    -- a scripted failure is used up, so the probes change although the operation fails
    | some failure => simpa [perform, hit, away, fault] using probes _ _ holds
    | none =>
      cases ran : (work r o).run
          (b.record (b.probes.get (b.probeOf r)).journal o.key o.detail) with
      | error stop => simpa [perform, hit, away, fault, ran] using recorded
      | ok p => simpa [perform, hit, away, fault, ran] using keeps recorded ran

end Bench
end Simulation
end Cancelable
