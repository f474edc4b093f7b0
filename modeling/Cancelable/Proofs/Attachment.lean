import Cancelable.Proofs.History

/-!
# Resources and their probes

A resource is placed with a probe of its own, or it is made by an operation on another resource and
gets a new probe or the one of that resource; and it keeps its probe.  So whatever has been given
out has a probe that has been given out, too.

Main statements: all that is new has a probe (`Bench.Probed.place`, `Bench.Probed.work`), so after
every history all resources have one (`Bench.Steps.probed`).
-/

namespace Cancelable
namespace Simulation

/-! ## Cells -/

namespace Cells

variable {α : Type} [Inhabited α] {p q : α → Prop} {c : Cells α}

/-- What holds of all that has been given out. -/
def All (p : α → Prop) (c : Cells α) : Prop :=
  ∀ ⦃i⦄, i < c.size → p (c.get i)

theorem All.mono (all : c.All p) (weaker : ∀ x, p x → q x) : c.All q :=
  fun _ given => weaker _ (all given)

theorem All.replace {f : α → Nat} {n : Nat} (all : c.All fun x => f x < n) {i : Nat} {x : α}
    (same : f x = f (c.get i)) : (c.set i x).All fun x => f x < n := by
  intro j given
  rw [get_set]
  split
  · next eq =>
    subst eq
    rw [same]
    exact all given
  · exact all given

theorem All.add (all : c.All p) {x : α} (new : p x) : (c.add x).2.All p := by
  intro j given
  rw [get_add]
  split
  · exact new
  · next old => exact all (Nat.lt_of_le_of_ne (Nat.le_of_lt_succ given) (Ne.symm old))

end Cells

namespace Bench

variable {b c : Bench} {e : Event} {events : List Event}

/-! ## Benches -/

/-- Whatever has been given out has a probe that has been given out. -/
structure Probed (b : Bench) : Prop where
  connections : b.connections.All (·.probe < b.probes.size)
  copyIns : b.copyIns.All (·.probe < b.probes.size)
  copyOuts : b.copyOuts.All (·.probe < b.probes.size)
  copyManagers : b.copyManagers.All (·.probe < b.probes.size)
  fastpaths : b.fastpaths.All (·.probe < b.probes.size)
  largeObjects : b.largeObjects.All (·.probe < b.probes.size)
  directories : b.directories.All (·.probe < b.probes.size)

theorem Probed.lt_size (probed : b.Probed) {a : Algebra} {r : Ref a} (has : b.Has r) :
    b.probeOf r < b.probes.size := by
  cases a with
  | connection => exact probed.connections has
  | copyIn => exact probed.copyIns has
  | copyOut => exact probed.copyOuts has
  | copyManager => exact probed.copyManagers has
  | fastpath => exact probed.fastpaths has
  | largeObject => exact probed.largeObjects has
  | directory => exact probed.directories has

theorem Probed.newProbe (probed : b.Probed) (journal : String) : (b.newProbe journal).2.Probed where
  connections := probed.connections.mono fun _ => Nat.lt_succ_of_lt
  copyIns := probed.copyIns.mono fun _ => Nat.lt_succ_of_lt
  copyOuts := probed.copyOuts.mono fun _ => Nat.lt_succ_of_lt
  copyManagers := probed.copyManagers.mono fun _ => Nat.lt_succ_of_lt
  fastpaths := probed.fastpaths.mono fun _ => Nat.lt_succ_of_lt
  largeObjects := probed.largeObjects.mono fun _ => Nat.lt_succ_of_lt
  directories := probed.directories.mono fun _ => Nat.lt_succ_of_lt

section New

variable (probed : b.Probed) (journal : String)

include probed

theorem Probed.newLargeObject {probe : Nat} (given : probe < b.probes.size) (oid : Int)
    (contents : Nat) : (b.newLargeObject probe oid contents).2.Probed :=
  { probed with largeObjects := probed.largeObjects.add given }

theorem Probed.newCopyIn (fields : Int) : (b.newCopyIn journal fields).2.Probed :=
  { probed.newProbe journal with
    copyIns := (probed.newProbe journal).copyIns.add (Nat.lt_succ_self _) }

theorem Probed.newCopyOut (fields : Int) (rows : List Bytes) :
    (b.newCopyOut journal fields rows).2.Probed :=
  { probed.newProbe journal with
    copyOuts := (probed.newProbe journal).copyOuts.add (Nat.lt_succ_self _) }

theorem Probed.newCopyManager (table : List Bytes) :
    (b.newCopyManager journal table).2.Probed :=
  { probed.newProbe journal with
    copyManagers := (probed.newProbe journal).copyManagers.add (Nat.lt_succ_self _) }

theorem Probed.newFastpath : (b.newFastpath journal).2.Probed :=
  { probed.newProbe journal with
    fastpaths := (probed.newProbe journal).fastpaths.add (Nat.lt_succ_self _) }

theorem Probed.newDirectory : (b.newDirectory journal).2.Probed :=
  { probed.newProbe journal with
    directories := (probed.newProbe journal).directories.add (Nat.lt_succ_self _) }

theorem Probed.place (spec : Scenario.ResourceSpec) : (spec.place journal b).2.Probed := by
  cases spec with
  | largeObject oid =>
    have start : ((b.newProbe journal).2.newContents).2.Probed := { probed.newProbe journal with }
    exact start.newLargeObject (Nat.lt_succ_self _) oid _
  | directory => exact probed.newDirectory journal
  | copyIn fields => exact probed.newCopyIn journal fields
  | copyOut fields rows => exact probed.newCopyOut journal fields rows
  | copyManager table => exact probed.newCopyManager journal table
  | fastpath => exact probed.newFastpath journal
  | connection pid =>
    -- its own probe comes first, and then what it gives access to
    have parts := (((probed.newProbe journal).newCopyManager journal []).newFastpath
      journal).newDirectory journal
    have own : b.probes.size < ((((b.newProbe journal).2.newCopyManager journal []).2.newFastpath
        journal).2.newDirectory journal).2.probes.size := by
      simp only [Bench.newProbe, Bench.newCopyManager, Bench.newFastpath, Bench.newDirectory,
        Cells.add]
      omega
    exact { parts with connections := parts.connections.add own }

end New

theorem Probed.work {a : Algebra} {r : Ref a} {o : Op a} {x : Op.Answer Ref o}
    (probed : b.Probed) (has : b.Has r) (ran : (work r o).run b = .ok (x, c)) : c.Probed := by
  cases a with
  | connection =>
    exact Connection.keeps_act (fun b x same probed =>
      { probed with connections := probed.connections.replace same }) o probed ran
  | copyIn =>
    exact CopyIn.keeps_act (fun b x same probed =>
      { probed with copyIns := probed.copyIns.replace same }) o probed ran
  | copyOut =>
    exact CopyOut.keeps_act (fun b x same probed =>
      { probed with copyOuts := probed.copyOuts.replace same }) o probed ran
  | copyManager =>
    exact CopyManager.keeps_act (r := r) (fun b j fields probed => probed.newCopyIn j fields)
      (fun b j fields rows probed => probed.newCopyOut j fields rows) o probed ran
  | fastpath =>
    exact Fastpath.keeps_act (fun b x same probed =>
      { probed with fastpaths := probed.fastpaths.replace same }) o probed ran
  | directory =>
    have kept := Directory.keeps_act (I := fun b => b.Probed ∧ b.Has r) (r := r)
      (fun b x same known =>
        ⟨{ known.1 with directories := known.1.directories.replace same }, known.2⟩)
      (fun b known => ⟨{ known.1 with }, known.2⟩)
      (fun b oid i known => ⟨known.1.newLargeObject (known.1.lt_size known.2) oid i, known.2⟩)
      o ⟨probed, has⟩ ran
    exact kept.1
  | largeObject =>
    have due := LargeObject.run_act b r o
    cases answered : LargeObject.answer (b.objectOf r) (b.bytesOf r) b.largeObjects.size o with
    | error stop =>
      rw [answered] at due
      cases due.symm.trans ran
    | ok y =>
      rw [answered] at due
      cases due.symm.trans ran
      cases o with
      | oid | tell | size => exact probed
      | truncate => exact { probed with }
      | read | seek | close | write =>
        exact { probed with largeObjects := probed.largeObjects.replace rfl }
      | copy => exact probed.newLargeObject (probed.lt_size has) _ _

theorem Step.probed (probed : b.Probed) (step : Step b e c) : c.Probed := by
  cases step with
  | placed journal spec => exact probed.place journal spec
  | scripted | journaled => exact { probed with }
  | notified => exact { probed with connections := probed.connections.replace rfl }
  | hit _ op detail =>
    simp only [Bench.hit]
    split
    · exact { probed with }
    · exact { probed with }
  | @performed a r has o =>
    cases performed : b.perform r o with
    | mk answer d =>
      cases answer with
      | error stop =>
        cases fails_of_perform performed with
        | away => exact probed
        | faulted | stopped => exact { probed with }
      | ok x =>
        obtain ⟨-, -, ran⟩ := perform_eq_ok_iff.mp performed
        have noted : (b.noted r o).Probed := { probed with }
        exact noted.work (has : (b.noted r o).Has r) ran

theorem probed_empty : Probed {} := by
  constructor <;> exact fun _ given => absurd given (Nat.not_lt_zero _)

theorem Steps.probed (steps : Steps {} events b) : b.Probed :=
  steps.invariant probed_empty fun _ _ _ probed step => step.probed probed

end Bench
end Simulation
end Cancelable
