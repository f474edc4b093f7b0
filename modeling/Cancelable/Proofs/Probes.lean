import Cancelable.Proofs.Attachment
import Cancelable.Proofs.Harmless
import Cancelable.Proofs.Uses

/-!
# Probes and journals over a history

A probe is told to make the next operation of a name fail, and if it is told so again before such an
operation begins, the later failure stands in place of the earlier one.  The operation that begins
next at the probe fails with it, and then it is used up.  An operation that begins and does not fail
so is recorded in the journal of the probe, even if its work is stopped afterwards.  Several
resources may share a probe, and several probes may share a journal.

An operation that is turned away does not use its probe, and other events use neither probes nor
journals.  So a history comes with the list of its uses, and these tell what each operation finds
at its probe, and what the journals hold.

Main statements: every history has such a list (`Bench.Steps.used`), what each event makes of probes
and journals (`Bench.Step.makes`), and that in every history an operation fails at its probe exactly
if the probe has been told so since the last one of its name began, and journals hold exactly the
operations that did not fail so (`Bench.probes_exact`).
-/

namespace Cancelable
namespace Simulation

/-! ## What an event does with probes -/

/-- The scripted failure that an operation is answered with. -/
def faultOf? {α : Type} : Except Stop α → Option Failure
  | .error (.fault failure) => some failure
  | .error (.rejected _) | .error .overflow | .ok _ => none

namespace Bench

/-- The failure that a probe is armed with for the operations of a name. -/
def armed (b : Bench) (probe : Nat) (op : String) : Option Failure :=
  (b.probes.get probe).fault? op

def begun (b : Bench) (probe : Nat) (op detail : String) (failure? : Option Failure) : Use :=
  .begun probe (b.probes.get probe).journal op detail failure?

/-- What an event does with probes and journals.  An operation that is turned away does nothing with
its probe. -/
def use? (b : Bench) : Event → Option Use
  | .scripted probe op failure => some (.scripted probe op failure)
  | .hit probe op detail failure? => some (b.begun probe op detail failure?)
  | .performed r o answer =>
    match b.turnsAway r o with
    | some _ => none
    | none => some (b.begun (b.probeOf r) o.key o.detail (faultOf? answer))
  | .journaled name f => some (.edited name f)
  | .placed .. | .notified .. => none

/-- Events one after the other, and what they do with probes and journals. -/
inductive Uses (b : Bench) : List Use → Bench → Prop where
  | nil : Uses b [] b
  | idle {uses : List Use} {c d : Bench} {e : Event} (before : Uses b uses c) (step : Step c e d)
    (unused : c.use? e = none) : Uses b uses d
  | snoc {uses : List Use} {c d : Bench} {e : Event} {u : Use} (before : Uses b uses c)
    (step : Step c e d) (used : c.use? e = some u) : Uses b (uses ++ [u]) d

variable {b c d : Bench} {e : Event} {events : List Event} {u : Use} {us vs : List Use}

/-- Every history is of this kind. -/
theorem Steps.used (steps : Steps b events c) : ∃ us, Uses b us c := by
  induction steps with
  | nil => exact ⟨[], .nil⟩
  | @snoc events c d e _ step ih =>
    obtain ⟨us, before⟩ := ih
    cases used : c.use? e with
    | none => exact ⟨us, before.idle step used⟩
    | some u => exact ⟨us ++ [u], before.snoc step used⟩

theorem Uses.steps (history : Uses b us c) : ∃ events, Steps b events c := by
  induction history with
  | nil => exact ⟨[], .nil⟩
  | idle _ step _ ih | snoc _ step _ ih =>
    obtain ⟨events, before⟩ := ih
    exact ⟨_, before.snoc step⟩

/-! ## What uses make of probes and journals -/

/-- Probes that have not been given out are not armed. -/
def Blank (b : Bench) : Prop :=
  ∀ ⦃probe⦄, b.probes.size ≤ probe → ∀ op, b.armed probe op = none

/-- What the probes are armed with and what is in the journals is what the uses have made of it, and
nothing else has changed about them. -/
structure Makes (b : Bench) (us : List Use) (c : Bench) : Prop where
  blank : c.Blank
  size_le : b.probes.size ≤ c.probes.size
  armed : ∀ probe op, c.armed probe op =
    us.foldl (fun armed u => u.armedAfter probe op armed) (b.armed probe op)
  journal : ∀ name, c.journal name = us.foldl (fun j u => u.journalAfter name j) (b.journal name)
  /-- A probe keeps its journal. -/
  home : ∀ ⦃probe⦄, probe < b.probes.size →
    (c.probes.get probe).journal = (b.probes.get probe).journal

theorem Makes.refl (blank : b.Blank) : b.Makes [] b :=
  ⟨blank, Nat.le_refl _, fun _ _ => rfl, fun _ => rfl, fun _ _ => rfl⟩

theorem Makes.trans (first : b.Makes us c) (second : c.Makes vs d) : b.Makes (us ++ vs) d where
  blank := second.blank
  size_le := Nat.le_trans first.size_le second.size_le
  armed := by
    intro probe op
    rw [second.armed, first.armed, List.foldl_append]
  journal := by
    intro name
    rw [second.journal, first.journal, List.foldl_append]
  home := by
    intro probe given
    rw [second.home (Nat.lt_of_lt_of_le given first.size_le), first.home given]

/-- Nothing changes about probes and journals. -/
theorem Makes.of_eq (makes : b.Makes us c) (probes : d.probes = c.probes)
    (journals : d.journals = c.journals) : b.Makes us d := by
  have armed : ∀ probe op, d.armed probe op = c.armed probe op := by
    intro probe op
    rw [Bench.armed, Bench.armed, probes]
  refine ⟨?_, ?_, ?_, ?_, ?_⟩
  · intro probe unused op
    rw [armed]
    exact makes.blank (probes ▸ unused) op
  · rw [probes]
    exact makes.size_le
  · intro probe op
    rw [armed, makes.armed]
  · intro name
    rw [← makes.journal, Bench.journal, Bench.journal, journals]
  · intro probe given
    rw [probes]
    exact makes.home given

theorem Makes.newProbe (makes : b.Makes us c) (journal : String) :
    b.Makes us (c.newProbe journal).2 := by
  -- at a number that has not been given out nothing was armed before, either
  have armed : ∀ probe op, (c.newProbe journal).2.armed probe op = c.armed probe op := by
    intro probe op
    rw [Bench.armed, Bench.newProbe, Cells.get_add]
    split
    · next new => simpa [Probe.fault?] using (makes.blank (Nat.le_of_eq new) op).symm
    · rfl
  refine ⟨?_, ?_, ?_, makes.journal, ?_⟩
  · intro probe unused op
    rw [armed]
    exact makes.blank (Nat.le_of_succ_le unused) op
  · exact Nat.le_succ_of_le makes.size_le
  · intro probe op
    rw [armed, makes.armed]
  · intro probe given
    have old : c.probes.size ≠ probe := Nat.ne_of_gt (Nat.lt_of_lt_of_le given makes.size_le)
    rw [← makes.home given, Bench.newProbe, Cells.get_add, if_neg old]

/-! ## New resources -/

theorem Makes.newCopyIn (makes : b.Makes us c) (journal : String) (fields : Int) :
    b.Makes us (c.newCopyIn journal fields).2 :=
  (makes.newProbe journal).of_eq rfl rfl

theorem Makes.newCopyOut (makes : b.Makes us c) (journal : String) (fields : Int)
    (rows : List Bytes) : b.Makes us (c.newCopyOut journal fields rows).2 :=
  (makes.newProbe journal).of_eq rfl rfl

theorem Makes.newConnection (makes : b.Makes us c) (journal : String) (pid : Int) :
    b.Makes us (c.newConnection journal pid).2 := by
  have copies : b.Makes us ((c.newProbe journal).2.newCopyManager journal []).2 :=
    ((makes.newProbe journal).newProbe journal).of_eq rfl rfl
  have fastpath : b.Makes us
      (((c.newProbe journal).2.newCopyManager journal []).2.newFastpath journal).2 :=
    (copies.newProbe journal).of_eq rfl rfl
  exact (fastpath.newProbe journal).of_eq rfl rfl

theorem makes_place (blank : b.Blank) (journal : String) (spec : Scenario.ResourceSpec) :
    b.Makes [] (spec.place journal b).2 := by
  have start := Makes.refl blank
  cases spec with
  | largeObject | directory | copyManager | fastpath => exact (start.newProbe journal).of_eq rfl rfl
  | copyIn fields => exact start.newCopyIn journal fields
  | copyOut fields rows => exact start.newCopyOut journal fields rows
  | connection pid => exact start.newConnection journal pid

/-! ## Operations -/

section Operations

variable {a : Algebra} {r : Ref a} {o : Op a}

/-- The work of an operation does nothing with probes and journals, except that what is new has new
probes. -/
theorem makes_work (blank : b.Blank) {x : Op.Answer Ref o}
    (ran : (work r o).run b = .ok (x, c)) : b.Makes [] c := by
  have start := Makes.refl blank
  cases a with
  | connection => exact Connection.keeps_act (fun b x _ makes => makes.of_eq rfl rfl) o start ran
  | copyIn => exact CopyIn.keeps_act (fun b x _ makes => makes.of_eq rfl rfl) o start ran
  | copyOut => exact CopyOut.keeps_act (fun b x _ makes => makes.of_eq rfl rfl) o start ran
  | copyManager =>
    exact CopyManager.keeps_act (r := r) (fun b j fields makes => makes.newCopyIn j fields)
      (fun b j fields rows makes => makes.newCopyOut j fields rows) o start ran
  | fastpath => exact Fastpath.keeps_act (fun b x _ makes => makes.of_eq rfl rfl) o start ran
  | directory =>
    exact Directory.keeps_act (fun b x _ makes => makes.of_eq rfl rfl)
      (fun b makes => makes.of_eq rfl rfl) (fun b oid i makes => makes.of_eq rfl rfl) o start ran
  | largeObject =>
    have due := LargeObject.run_act b r o
    cases answered : LargeObject.answer (b.objectOf r) (b.bytesOf r) b.largeObjects.size o with
    | error stop =>
      rw [answered] at due
      cases due.symm.trans ran
    | ok y =>
      rw [answered] at due
      cases due.symm.trans ran
      cases o with
      | oid | read | write | seek | tell | size | truncate | copy | close =>
        exact start.of_eq rfl rfl

/-- An operation that begins fails with what its probe is armed with. -/
theorem hit_fst (b : Bench) (probe : Nat) (op detail : String) :
    (b.hit probe op detail).1 = b.armed probe op := by
  rw [armed]
  cases fault : (b.probes.get probe).fault? op with
  | some failure => simp [hit, fault]
  | none => simp [hit, fault]

theorem journal_updateJournal (b : Bench) (journal name : String) (f : Journal → Journal) :
    (b.updateJournal journal f).journal name =
      if journal = name then f (b.journal name) else b.journal name := by
  simp only [updateJournal, Bench.journal, Std.ExtTreeMap.getD_insert,
    Std.LawfulEqCmp.compare_eq_iff_eq]
  by_cases same : journal = name
  · simp [same]
  · simp [same]

theorem makes_hit (blank : b.Blank) (probe : Nat) (op detail : String) :
    b.Makes [b.begun probe op detail (b.hit probe op detail).1] (b.hit probe op detail).2 := by
  cases fault : (b.probes.get probe).fault? op with
  | some failure =>
    have armed : ∀ i key, (b.hit probe op detail).2.armed i key =
        if probe = i ∧ op = key then none else b.armed i key := by
      intro i key
      simp only [hit, fault]
      exact fault?_forgotten b probe i op key
    refine ⟨?_, ?_, armed, ?_, ?_⟩
    · intro i unused key
      rw [armed, blank (by simpa [hit, fault] using unused), ite_self]
    · simp [hit, fault]
    · intro name
      simp [hit, fault, begun, Use.journalAfter, Bench.journal]
    · intro i _
      simp only [hit, fault]
      exact journal_forgotten b probe i op
  | none =>
    have probes : (b.hit probe op detail).2.probes = b.probes := by
      simp [hit, fault, record, updateJournal]
    refine ⟨?_, ?_, ?_, ?_, ?_⟩
    · intro i unused key
      rw [Bench.armed, probes]
      exact blank (probes ▸ unused) key
    · exact Nat.le_of_eq (congrArg Cells.size probes.symm)
    · -- it is used up as if it had been armed, which makes no difference
      intro i key
      rw [Bench.armed, probes]
      simp only [List.foldl_cons, List.foldl_nil, begun, Use.armedAfter]
      split
      · next same =>
        obtain ⟨rfl, rfl⟩ := same
        exact fault
      · rfl
    · intro name
      simp only [hit, fault, record, List.foldl_cons, List.foldl_nil, begun, Use.journalAfter]
      exact journal_updateJournal ..
    · intro i _
      rw [probes]

/-- An operation that is not turned away begins at its probe; then its work follows, unless it fails
there. -/
theorem makes_of_inside (blank : b.Blank) (inside : b.turnsAway r o = none) :
    faultOf? (b.perform r o).1 = (b.hit (b.probeOf r) o.key o.detail).1 ∧
      (b.hit (b.probeOf r) o.key o.detail).2.Makes [] (b.perform r o).2 := by
  have after := (makes_hit blank (b.probeOf r) o.key o.detail).blank
  cases begins : b.hit (b.probeOf r) o.key o.detail with
  | mk failure? d =>
    rw [begins] at after
    cases failure? with
    | some failure => simpa [perform, inside, begins, faultOf?] using Makes.refl after
    | none =>
      cases ran : (work r o).run d with
      | ok p => simpa [perform, inside, begins, ran, faultOf?] using makes_work after ran
      | error stop =>
        -- work is not stopped by a scripted failure
        have late : faultOf? (.error stop : Except Stop (Op.Answer Ref o)) = none := by
          cases stop with
          | fault failure => exact absurd (late_of_run ran) id
          | rejected | overflow => rfl
        simpa [perform, inside, begins, ran, late] using Makes.refl after

theorem use?_performed (inside : b.turnsAway r o = none) (blank : b.Blank) :
    b.use? (.performed r o (b.perform r o).1) =
      some (b.begun (b.probeOf r) o.key o.detail (b.hit (b.probeOf r) o.key o.detail).1) := by
  simp only [use?, inside, (makes_of_inside blank inside).1]

theorem makes_perform (blank : b.Blank) (r : Ref a) (o : Op a) :
    b.Makes (b.use? (.performed r o (b.perform r o).1)).toList (b.perform r o).2 := by
  cases away : b.turnsAway r o with
  | some why =>
    simpa [use?, away, perform_of_turnedAway away] using Makes.refl blank
  | none =>
    rw [use?_performed away blank]
    exact (makes_hit blank _ _ _).trans (makes_of_inside blank away).2

end Operations

/-! ## Events -/

theorem makes_failNext (blank : b.Blank) {probe : Nat} (given : probe < b.probes.size) (op : String)
    (failure : Failure) : b.Makes [.scripted probe op failure] (b.failNext probe op failure) := by
  have armed : ∀ i key, (b.failNext probe op failure).armed i key =
      if probe = i ∧ op = key then some failure else b.armed i key := by
    intro i key
    by_cases same : probe = i
    · simp [Bench.armed, failNext, same, Probe.fault?_failNext]
    · simp [Bench.armed, failNext, same, Cells.get_set]
  refine ⟨?_, Nat.le_refl _, armed, fun _ => rfl, ?_⟩
  · intro i unused key
    have other : probe ≠ i := Nat.ne_of_lt (Nat.lt_of_lt_of_le given unused)
    rw [armed, if_neg fun same => other same.1]
    exact blank unused key
  · intro i _
    by_cases same : probe = i
    · simp [failNext, same, Probe.failNext]
    · simp [failNext, same, Cells.get_set]

/-- What an event does with probes and journals is all that happens to them. -/
theorem Step.makes (blank : b.Blank) (step : Step b e c) : b.Makes (b.use? e).toList c := by
  cases step with
  | placed journal spec => exact makes_place blank journal spec
  | performed _ o => exact makes_perform blank _ o
  | scripted given op failure => exact makes_failNext blank given op failure
  | hit _ op detail => exact makes_hit blank _ op detail
  | notified => exact (Makes.refl blank).of_eq rfl rfl
  | journaled name f =>
    exact { (Makes.refl blank) with journal := fun name' => journal_updateJournal b name name' f }

theorem Step.makes_nothing (blank : b.Blank) (step : Step b e c) (unused : b.use? e = none) :
    b.Makes [] c := by
  have made := step.makes blank
  rw [unused] at made
  exact made

theorem Step.makes_use (blank : b.Blank) (step : Step b e c) (used : b.use? e = some u) :
    b.Makes [u] c := by
  have made := step.makes blank
  rw [used] at made
  exact made

/-- An operation that begins fails with what its probe is armed with.  The probe has been given out,
and if the operation is recorded it is in the journal of the probe. -/
theorem Step.begins {probe : Nat} {journal op detail : String} {failure? : Option Failure}
    (blank : b.Blank) (probed : b.Probed) (step : Step b e c)
    (used : b.use? e = some (.begun probe journal op detail failure?)) :
    failure? = b.armed probe op ∧ probe < b.probes.size ∧
      (b.probes.get probe).journal = journal := by
  cases step with
  | placed | scripted | notified | journaled => cases used
  | hit given =>
    cases used
    exact ⟨b.hit_fst _ _ _, given, rfl⟩
  | @performed a r has o =>
    cases away : b.turnsAway r o with
    | some why => simp [use?, away] at used
    | none =>
      rw [use?_performed away blank] at used
      cases used
      exact ⟨b.hit_fst _ _ _, probed.lt_size has, rfl⟩

/-! ## Histories -/

theorem armed_empty (probe : Nat) (op : String) : armed {} probe op = none := rfl

theorem Uses.makes (history : Uses {} us b) : Makes {} us b := by
  have blank : Blank {} := fun probe _ op => armed_empty probe op
  induction history with
  | nil => exact .refl blank
  | idle _ step unused ih => simpa using ih.trans (step.makes_nothing ih.blank unused)
  | snoc _ step used ih => exact ih.trans (step.makes_use ih.blank used)

theorem Uses.probed (history : Uses {} us b) : b.Probed := by
  obtain ⟨events, steps⟩ := history.steps
  exact steps.probed

/-- A probe is armed with a failure exactly if that has been scripted, and no operation of the name
has begun since. -/
theorem Uses.armed_iff (history : Uses {} us b) {probe : Nat} {op : String} {failure : Failure} :
    b.armed probe op = some failure ↔ Armed probe op failure us := by
  induction history with
  | nil => simpa [armed_empty] using not_armed_nil
  | idle before step unused ih =>
    rw [(step.makes_nothing before.makes.blank unused).armed]
    exact ih
  | @snoc _ c _ _ u before step used ih =>
    rw [(step.makes_use before.makes.blank used).armed, armed_snoc_iff, ← ih]
    show u.armedAfter probe op (c.armed probe op) = some failure ↔ _
    cases own : u.concerns probe op with
    | false =>
      have other : u ≠ .scripted probe op failure := by
        rintro rfl
        simp [Use.concerns] at own
      simp [Use.armedAfter_of_not_concerns own, other]
    | true => simp [Use.armedAfter_of_concerns own]

/-- Each operation that has begun has found its probe armed or not, as it was at the time. -/
theorem Uses.begun_iff (history : Uses {} us b) {before after : List Use} {probe : Nat}
    {journal op detail : String} {failure? : Option Failure}
    (eq : us = before ++ .begun probe journal op detail failure? :: after) :
    (∀ failure, failure? = some failure ↔ Armed probe op failure before) ∧
      probe < b.probes.size ∧ (b.probes.get probe).journal = journal := by
  induction history generalizing after with
  | nil => simp at eq
  | idle earlier step _ ih =>
    obtain ⟨found, given, home⟩ := ih eq
    have made := step.makes earlier.makes.blank
    exact ⟨found, Nat.lt_of_lt_of_le given made.size_le, (made.home given).trans home⟩
  | snoc earlier step used ih =>
    have made := step.makes earlier.makes.blank
    rcases last_or_earlier eq with ⟨-, rfl, rfl⟩ | ⟨rest, -, eq⟩
    · -- it is the latest use
      obtain ⟨found, given, home⟩ := step.begins earlier.makes.blank earlier.probed used
      refine ⟨?_, Nat.lt_of_lt_of_le given made.size_le, (made.home given).trans home⟩
      intro failure
      rw [found]
      exact earlier.armed_iff
    · obtain ⟨found, given, home⟩ := ih eq
      exact ⟨found, Nat.lt_of_lt_of_le given made.size_le, (made.home given).trans home⟩

/-! ## The account of probes and journals -/

/-- What holds of probes and journals after a history. -/
structure ProbesExact (b : Bench) (us : List Use) : Prop where
  /-- An operation has failed exactly if a failure had been scripted for it since the last one of
  its name began, and with the failure that was scripted last. -/
  begun : ∀ before after probe journal op detail failure?,
    us = before ++ .begun probe journal op detail failure? :: after →
      ∀ failure, failure? = some failure ↔ Armed probe op failure before
  next : ∀ probe op detail failure,
    (b.hit probe op detail).1 = some failure ↔ Armed probe op failure us
  /-- Only what concerns the operations of a name at a probe has a say in that: in two histories
  that agree on it the next operation of the name fares alike. -/
  apart : ∀ (c : Bench) vs probe op detail detail', Uses {} vs c →
    vs.filter (·.concerns probe op) = us.filter (·.concerns probe op) →
      (c.hit probe op detail').1 = (b.hit probe op detail).1
  /-- A probe has one journal for good. -/
  home : ∀ probe journal op detail failure?, .begun probe journal op detail failure? ∈ us →
    (b.probes.get probe).journal = journal
  journal : ∀ name, b.journal name = replayed name us
  /-- While a journal is not written to or cleared by itself, it grows by the operations that begin
  at any of its probes and do not fail, in order. -/
  grown : ∀ name before after, us = before ++ after → (∀ f, .edited name f ∉ after) →
    (b.journal name).Shows ((replayed name before).entries ++ after.filterMap (·.recorded? name))

/-- Whatever is done on a bench: scripted failures happen once, to the next operation of the name at
the probe and to no other one, and the journals hold the operations that did not fail. -/
theorem probes_exact (history : Uses {} us b) : b.ProbesExact us := by
  constructor
  · intro before after probe journal op detail failure? eq
    exact (history.begun_iff eq).1
  · intro probe op detail failure
    rw [hit_fst]
    exact history.armed_iff
  · intro c vs probe op detail detail' other same
    rw [hit_fst, hit_fst]
    apply Option.ext
    intro failure
    rw [history.armed_iff, other.armed_iff, ← armed_filter_iff, same, armed_filter_iff]
  · intro probe journal op detail failure? mem
    obtain ⟨before, after, eq⟩ := List.append_of_mem mem
    exact (history.begun_iff eq).2.2
  · exact history.makes.journal
  · rintro name before after rfl unedited
    rw [← entries_replayed_append unedited]
    have same : b.journal name = replayed name (before ++ after) := history.makes.journal name
    rw [same]
    exact Journal.shows_entries _

/-- A channel and a large object write to one journal.  The probe of the channel is told twice that
`fastpath.sum` is to fail, each time in another way.  The large object is asked for its position,
which succeeds; the next call of the function fails with the second failure, and the one after it
succeeds. -/
theorem probes_exact_after_overwriting :
    let first : Failure := .message ⟨0, []⟩ "first"
    let second : Failure := .message ⟨1, []⟩ "second"
    let placed := (Scenario.ResourceSpec.place "main" (.largeObject 1) (newFastpath {} "main").2).2
    let scripted := (placed.failNext 0 "fastpath.sum" first).failNext 0 "fastpath.sum" second
    let told := (scripted.perform (⟨0⟩ : Ref .largeObject) (.tell : LargeObject.Op)).2
    let failed := (told.hit 0 "fastpath.sum" "1").2
    let called := (failed.hit 0 "fastpath.sum" "2").2
    (told.hit 0 "fastpath.sum" "1").1 = some second ∧
      (failed.hit 0 "fastpath.sum" "2").1 = none ∧
      (called.journal "main").Shows [⟨"large_object.tell", ""⟩, ⟨"fastpath.sum", "2"⟩] := by
  intro first second placed scripted told failed called
  have start : Uses {} [] placed :=
    (Uses.nil.idle (.placed "main" .fastpath) rfl).idle (.placed "main" (.largeObject 1)) rfl
  have scripts : Uses {} [.scripted 0 "fastpath.sum" first, .scripted 0 "fastpath.sum" second]
      scripted :=
    (start.snoc (.scripted (by decide) "fastpath.sum" first) rfl).snoc
      (.scripted (by decide) "fastpath.sum" second) rfl
  have has : scripted.Has (⟨0⟩ : Ref .largeObject) := Nat.lt_succ_self 0
  have tells : Uses {} ([.scripted 0 "fastpath.sum" first, .scripted 0 "fastpath.sum" second] ++
      [.begun 1 "main" "large_object.tell" "" none]) told :=
    scripts.snoc (.performed has (.tell : LargeObject.Op)) rfl
  have fails : Uses {} (_ ++ [.begun 0 "main" "fastpath.sum" "1" (some second)]) failed :=
    tells.snoc (.hit (by decide) "fastpath.sum" "1") rfl
  have calls : Uses {} (_ ++ [.begun 0 "main" "fastpath.sum" "2" none]) called :=
    fails.snoc (.hit (by decide) "fastpath.sum" "2") rfl
  refine ⟨?_, ?_, ?_⟩
  · apply ((probes_exact tells).next 0 "fastpath.sum" "1" second).mpr
    refine ⟨[.scripted 0 "fastpath.sum" first], [.begun 1 "main" "large_object.tell" "" none],
      rfl, ?_⟩
    simp [Use.concerns]
  · apply Option.eq_none_iff_forall_ne_some.mpr
    intro failure eq
    have armed := ((probes_exact fails).next 0 "fastpath.sum" "2" failure).mp eq
    -- the call that has failed is the latest use
    rw [armed_snoc_iff] at armed
    simp [Use.concerns] at armed
  · exact (probes_exact calls).grown "main" [] _ rfl (by simp)

end Bench
end Simulation
end Cancelable
