import Cancelable.Proofs.Sharing

/-!
# Benches with the same objects

What operations on descriptors do, and how they are answered, depends on the descriptors and their
bytes, and on the failures that are scripted for such operations.  It depends neither on journals
nor on directories, so it does not matter whether an object is still in one.

Main statements: operations make the same of the same objects (`Bench.SameObjects.afterwards`), and
benches that are alike to descriptors answer the same for good (`Bench.Alike.transcript_eq`).
-/

namespace Cancelable
namespace Simulation
namespace Bench

variable {b c d : Bench} {r : Ref .largeObject}

/-- Benches with the same descriptors and bytes. -/
structure SameDescriptors (b c : Bench) : Prop where
  contents : c.contents = b.contents
  largeObjects : c.largeObjects = b.largeObjects

/-- Benches that have the same directories, too. -/
structure SameObjects (b c : Bench) : Prop extends SameDescriptors b c where
  directories : c.directories = b.directories

/-! ## The same descriptors -/

namespace SameDescriptors

variable (same : b.SameDescriptors c)

include same

theorem objectOf_eq (r : Ref .largeObject) : c.objectOf r = b.objectOf r := by
  simp only [objectOf, same.largeObjects]

theorem bytesOf_eq (r : Ref .largeObject) : c.bytesOf r = b.bytesOf r := by
  simp only [bytesOf, same.largeObjects, same.contents]

theorem has (has : c.Has r) : b.Has r := by
  rw [Has, given, same.largeObjects] at has
  exact has

theorem due_eq (r : Ref .largeObject) (o : LargeObject.Op) : c.due r o = b.due r o := by
  simp only [due, same.objectOf_eq, same.bytesOf_eq, same.largeObjects]

/-- An operation makes the same of the same descriptors. -/
theorem afterwards (r : Ref .largeObject) (o : LargeObject.Op) :
    (b.afterwards r o).SameDescriptors (c.afterwards r o) := by
  obtain ⟨contents, largeObjects⟩ := same
  cases o <;>
    constructor <;>
      simp [Bench.afterwards, setObject, setBytes, newLargeObject, Bench.objectOf, Bench.bytesOf,
        contents, largeObjects]

end SameDescriptors

/-! ## The same objects -/

theorem SameObjects.refl (b : Bench) : b.SameObjects b :=
  ⟨⟨rfl, rfl⟩, rfl⟩

theorem SameObjects.trans (first : b.SameObjects c) (second : c.SameObjects d) :
    b.SameObjects d :=
  ⟨⟨second.contents.trans first.contents, second.largeObjects.trans first.largeObjects⟩,
    second.directories.trans first.directories⟩

theorem SameObjects.symm (same : b.SameObjects c) : c.SameObjects b :=
  ⟨⟨same.contents.symm, same.largeObjects.symm⟩, same.directories.symm⟩

theorem directories_afterwards (b : Bench) (r : Ref .largeObject) (o : LargeObject.Op) :
    (b.afterwards r o).directories = b.directories := by
  cases o with
  | oid | read | write | seek | tell | size | truncate | copy | close => rfl

theorem SameObjects.afterwards (same : b.SameObjects c) (r : Ref .largeObject)
    (o : LargeObject.Op) : (b.afterwards r o).SameObjects (c.afterwards r o) where
  toSameDescriptors := same.toSameDescriptors.afterwards r o
  directories := by
    rw [directories_afterwards, directories_afterwards, same.directories]

theorem Same.sameObjects (same : b.Same c) : b.SameObjects c :=
  ⟨⟨same.contents, same.largeObjects⟩, same.directories⟩

theorem sameObjects_noted {a : Algebra} (q : Ref a) (o : Op a) : b.SameObjects (b.noted q o) :=
  ⟨⟨rfl, rfl⟩, rfl⟩

/-- An operation that succeeds makes of the objects what is due. -/
theorem sameObjects_of_perform {o : LargeObject.Op} {x : LargeObject.Op.Answer Ref o}
    (performed : b.perform r o = (.ok x, c)) : (b.afterwards r o).SameObjects c := by
  obtain ⟨-, -, -, rfl⟩ := of_perform_eq_ok performed
  exact (sameObjects_noted r o).afterwards r o

/-- Other resources know nothing of large objects. -/
theorem sameObjects_perform {a : Algebra} (q : Ref a) (o : Op a) (object : a ≠ .largeObject)
    (directory : a ≠ .directory) : b.SameObjects (b.perform q o).2 := by
  have keeps : Work.Keeps b.SameObjects (work q o) := by
    cases a with
    | largeObject => exact absurd rfl object
    | directory => exact absurd rfl directory
    | connection => exact Connection.keeps_act (fun _ _ _ same => ⟨⟨same.1.1, same.1.2⟩, same.2⟩) o
    | copyIn => exact CopyIn.keeps_act (fun _ _ _ same => ⟨⟨same.1.1, same.1.2⟩, same.2⟩) o
    | copyOut => exact CopyOut.keeps_act (fun _ _ _ same => ⟨⟨same.1.1, same.1.2⟩, same.2⟩) o
    | copyManager =>
      exact CopyManager.keeps_act (fun _ _ _ same => ⟨⟨same.1.1, same.1.2⟩, same.2⟩)
        (fun _ _ _ _ same => ⟨⟨same.1.1, same.1.2⟩, same.2⟩) o
    | fastpath => exact Fastpath.keeps_act (fun _ _ _ same => ⟨⟨same.1.1, same.1.2⟩, same.2⟩) o
  exact holds_of_perform (.refl b) (fun _ _ same => ⟨⟨same.1.1, same.1.2⟩, same.2⟩)
    (fun _ _ same => ⟨⟨same.1.1, same.1.2⟩, same.2⟩) keeps

theorem sameObjects_hit (b : Bench) (probe : Nat) (op detail : String) :
    b.SameObjects (b.hit probe op detail).2 := by
  simp only [hit]
  split
  · exact ⟨⟨rfl, rfl⟩, rfl⟩
  · exact ⟨⟨rfl, rfl⟩, rfl⟩

/-! ## Scripted failures -/

/-- Operations that succeed leave the scripted failures alone. -/
theorem probes_afterwards (b : Bench) (r : Ref .largeObject) (o : LargeObject.Op) :
    (b.afterwards r o).probes = b.probes := by
  cases o with
  | oid | read | write | seek | tell | size | truncate | copy | close => rfl

theorem probes_of_perform {o : LargeObject.Op} {x : LargeObject.Op.Answer Ref o}
    (performed : b.perform r o = (.ok x, c)) : c.probes = b.probes := by
  obtain ⟨-, -, -, rfl⟩ := of_perform_eq_ok performed
  exact probes_afterwards (b.noted r o) r o

theorem unscripted_of_perform {o o' : LargeObject.Op} {x : LargeObject.Op.Answer Ref o}
    (has : b.Has r) (performed : b.perform r o = (.ok x, c)) (free : b.Unscripted r o') :
    c.Unscripted r o' := by
  have probe : c.probeOf r = b.probeOf r := by
    have object := objectOf_of_perform has performed
    exact (congrArg LargeObject.probe object).trans (LargeObject.probe_next _ _ o)
  rw [Unscripted, probes_of_perform performed, probe]
  exact free

theorem fault?_forgotten (b : Bench) (probe i : Nat) (op key : String) :
    ((b.probes.set probe ((b.probes.get probe).forget op)).get i).fault? key =
      if probe = i ∧ op = key then none else (b.probes.get i).fault? key := by
  rw [Cells.get_set]
  by_cases eq : probe = i
  · simp [eq, Probe.fault?_forget]
  · simp [eq]

/-! ## Alike to descriptors -/

/-- Benches that descriptors cannot tell apart. -/
structure Alike (b c : Bench) : Prop extends SameDescriptors b c where
  faults : ∀ i (o : LargeObject.Op),
    (c.probes.get i).fault? (Op.key (a := .largeObject) o) =
      (b.probes.get i).fault? (Op.key (a := .largeObject) o)

/-- Operations are answered the same on benches that are alike, which they still are afterwards. -/
theorem Alike.perform (alike : b.Alike c) (r : Ref .largeObject) (o : LargeObject.Op) :
    (c.perform r o).1 = (b.perform r o).1 ∧ (b.perform r o).2.Alike (c.perform r o).2 := by
  have object : c.objectOf r = b.objectOf r := alike.objectOf_eq r
  cases closed : (b.objectOf r).closed with
  | true =>
    have closed' : (c.objectOf r).closed = true := by rw [object, closed]
    rw [perform_of_closed closed, perform_of_closed closed', object]
    exact ⟨rfl, alike⟩
  | false =>
    have closed' : (c.objectOf r).closed = false := by rw [object, closed]
    have probe : c.probeOf r = b.probeOf r := congrArg LargeObject.probe object
    have same := alike.faults (b.probeOf r) o
    rw [← probe] at same
    cases fault : (b.probes.get (b.probeOf r)).fault? (Op.key (a := .largeObject) o) with
    | some failure =>
      rw [probe, fault, ← probe] at same
      rw [perform_of_fault (turnsAway_of_open closed) fault,
        perform_of_fault (turnsAway_of_open closed') same]
      refine ⟨rfl, ⟨alike.contents, alike.largeObjects⟩, ?_⟩
      intro i o'
      simp only [fault?_forgotten, probe, alike.faults i o']
    | none =>
      rw [probe, fault, ← probe] at same
      have bytes : c.bytesOf r = b.bytesOf r := alike.bytesOf_eq r
      have answers : LargeObject.answer (c.objectOf r) (c.bytesOf r) c.largeObjects.size o =
          LargeObject.answer (b.objectOf r) (b.bytesOf r) b.largeObjects.size o := by
        rw [object, bytes, alike.largeObjects]
      cases answered : LargeObject.answer (b.objectOf r) (b.bytesOf r) b.largeObjects.size o with
      | error stop =>
        rw [perform_of_answer_error closed fault answered,
          perform_of_answer_error closed' same (answers.trans answered)]
        exact ⟨rfl, ⟨alike.contents, alike.largeObjects⟩, alike.faults⟩
      | ok x =>
        have noted : (b.noted r o).SameDescriptors (c.noted r o) :=
          ⟨alike.contents, alike.largeObjects⟩
        rw [perform_of_answer_ok closed fault answered,
          perform_of_answer_ok closed' same (answers.trans answered)]
        refine ⟨rfl, noted.afterwards r o, ?_⟩
        intro i o'
        simp only [probes_afterwards]
        exact alike.faults i o'

/-- What is on record of operations that are performed one after the other. -/
def transcript : List (Ref .largeObject × LargeObject.Op) → Bench → List Event
  | [], _ => []
  | (r, o) :: rest, b =>
    .performed r o (b.perform r o).1 :: transcript rest (b.perform r o).2

theorem Alike.transcript_eq (alike : b.Alike c) (ops : List (Ref .largeObject × LargeObject.Op)) :
    transcript ops c = transcript ops b := by
  induction ops generalizing b c with
  | nil => rfl
  | cons first rest ih =>
    obtain ⟨r, o⟩ := first
    obtain ⟨answers, still⟩ := alike.perform r o
    rw [transcript, transcript, answers, ih still]

end Bench
end Simulation
end Cancelable
