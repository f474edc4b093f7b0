import Cancelable.Proofs.Performance

/-!
# What an operation on a directory comes to

A directory creates an object under its next number, opens an object that it has, and takes one out
of it.  Opening and taking out are rejected if the directory has no object of that identifier, and
for no other reason.

Main statements: what an operation leaves that succeeds (`Bench.of_perform_create`,
`Bench.of_perform_openObject`, `Bench.of_perform_unlink`), and when opening and taking out succeed
(`Bench.opens_iff`, `Bench.unlinks_iff`).
-/

namespace Cancelable
namespace Simulation

namespace Bench

/-- A directory, as it is on the bench. -/
def directoryOf (b : Bench) (d : Ref .directory) : Directory :=
  b.directories.get d.index

def setDirectory (b : Bench) (d : Ref .directory) (directory : Directory) : Bench :=
  { b with directories := b.directories.set d.index directory }

end Bench

/-! ## Work -/

namespace Directory

variable {b : Bench} {d : Ref .directory} {oid : Int}

theorem holds_iff {directory : Directory} :
    directory.holds oid = true ↔ ∃ i, directory.objects[oid]? = some i := by
  rw [holds, Std.ExtTreeMap.contains_eq_isSome_getElem?, Option.isSome_iff_exists]

theorem run_openObject_of_some {i : Nat} (mode : Directory.Access)
    (found : (b.directoryOf d).objects[oid]? = some i) :
    (act d (.openObject oid mode) : Work (Ref .largeObject)).run b =
      .ok (b.newLargeObject (b.directoryOf d).probe oid i) := by
  rw [Bench.directoryOf] at found
  simp only [act, StateT.run_bind, StateT.run_get, pure_bind, found]
  rfl

theorem run_openObject_of_none (mode : Directory.Access)
    (missing : (b.directoryOf d).objects[oid]? = none) :
    (act d (.openObject oid mode) : Work (Ref .largeObject)).run b =
      .error (.rejected (.noObject oid)) := by
  rw [Bench.directoryOf] at missing
  simp only [act, StateT.run_bind, StateT.run_get, pure_bind, missing]
  rfl

theorem run_unlink_of_holds (holds : (b.directoryOf d).holds oid = true) :
    (act d (.unlink oid) : Work Unit).run b =
      .ok ((), b.setDirectory d
        { b.directoryOf d with objects := (b.directoryOf d).objects.erase oid }) := by
  rw [Bench.directoryOf] at holds
  simp only [act, StateT.run_bind, StateT.run_get, pure_bind, holds]
  rfl

theorem run_unlink_of_not_holds (missing : (b.directoryOf d).holds oid = false) :
    (act d (.unlink oid) : Work Unit).run b = .error (.rejected (.noObject oid)) := by
  rw [Bench.directoryOf] at missing
  simp only [act, StateT.run_bind, StateT.run_get, pure_bind, missing]
  rfl

end Directory

/-! ## Performing -/

namespace Bench

variable {b c : Bench} {d : Ref .directory} {oid : Int} {mode : Directory.Access}

/-- A new object has the directory's next number as its identifier, and no bytes. -/
theorem of_perform_create (created : b.perform d (.create mode : Directory.Op) = (.ok oid, c)) :
    oid = (b.directoryOf d).nextOid ∧
      c.contents = (b.contents.add #[]).2 ∧ c.largeObjects = b.largeObjects ∧
        c.directories = b.directories.set d.index
          { b.directoryOf d with
            nextOid := (b.directoryOf d).nextOid + 1
            objects := (b.directoryOf d).objects.insert oid b.contents.size } := by
  obtain ⟨-, -, ran⟩ := perform_eq_ok_iff.mp created
  cases ran
  exact ⟨rfl, rfl, rfl, rfl⟩

/-- A new descriptor stands at the first byte of the object, and has the probe of the directory. -/
theorem of_perform_openObject {r : Ref .largeObject}
    (opened : b.perform d (.openObject oid mode : Directory.Op) = (.ok r, c)) :
    ∃ i, (b.directoryOf d).objects[oid]? = some i ∧ r.index = b.largeObjects.size ∧
      c.contents = b.contents ∧ c.directories = b.directories ∧
        c.largeObjects =
          (b.largeObjects.add { probe := (b.directoryOf d).probe, oid, contents := i }).2 := by
  obtain ⟨-, -, ran⟩ := perform_eq_ok_iff.mp opened
  let noted := b.noted d (.openObject oid mode : Directory.Op)
  cases found : (b.directoryOf d).objects[oid]? with
  | none =>
    have rejected := Directory.run_openObject_of_none (b := noted) mode found
    cases rejected.symm.trans ran
  | some i =>
    have done := Directory.run_openObject_of_some (b := noted) mode found
    cases done.symm.trans ran
    exact ⟨i, rfl, rfl, rfl, rfl, rfl⟩

/-- Taking an object out of a directory touches neither its bytes nor a descriptor. -/
theorem of_perform_unlink (unlinked : b.perform d (.unlink oid : Directory.Op) = (.ok (), c)) :
    (b.directoryOf d).holds oid = true ∧
      c.contents = b.contents ∧ c.largeObjects = b.largeObjects ∧
        c.directories = b.directories.set d.index
          { b.directoryOf d with objects := (b.directoryOf d).objects.erase oid } := by
  obtain ⟨-, -, ran⟩ := perform_eq_ok_iff.mp unlinked
  let noted := b.noted d (.unlink oid : Directory.Op)
  cases holds : (b.directoryOf d).holds oid with
  | false =>
    have rejected := Directory.run_unlink_of_not_holds (b := noted) holds
    cases rejected.symm.trans ran
  | true =>
    have done := Directory.run_unlink_of_holds (b := noted) holds
    cases done.symm.trans ran
    exact ⟨rfl, rfl, rfl, rfl⟩

/-! ## The objects of a directory -/

/-- Creating adds an object, whose bytes are new. -/
theorem objects_of_create (created : b.perform d (.create mode : Directory.Op) = (.ok oid, c))
    (other : Int) :
    (c.directoryOf d).objects[other]? =
      if oid = other then some b.contents.size else (b.directoryOf d).objects[other]? := by
  obtain ⟨-, -, -, changed⟩ := of_perform_create created
  simp [directoryOf, changed, Std.ExtTreeMap.getElem?_insert]

theorem nextOid_of_create (created : b.perform d (.create mode : Directory.Op) = (.ok oid, c)) :
    (c.directoryOf d).nextOid = oid + 1 := by
  obtain ⟨next, -, -, changed⟩ := of_perform_create created
  simp [directoryOf, changed, next]

theorem directoryOf_of_openObject {r : Ref .largeObject}
    (opened : b.perform d (.openObject oid mode : Directory.Op) = (.ok r, c)) :
    c.directoryOf d = b.directoryOf d := by
  obtain ⟨-, -, -, -, same, -⟩ := of_perform_openObject opened
  simp [directoryOf, same]

theorem objects_of_unlink (unlinked : b.perform d (.unlink oid : Directory.Op) = (.ok (), c))
    (other : Int) :
    (c.directoryOf d).objects[other]? =
      if oid = other then none else (b.directoryOf d).objects[other]? := by
  obtain ⟨-, -, -, changed⟩ := of_perform_unlink unlinked
  simp [directoryOf, changed, Std.ExtTreeMap.getElem?_erase]

theorem nextOid_of_unlink (unlinked : b.perform d (.unlink oid : Directory.Op) = (.ok (), c)) :
    (c.directoryOf d).nextOid = (b.directoryOf d).nextOid := by
  obtain ⟨-, -, -, changed⟩ := of_perform_unlink unlinked
  simp [directoryOf, changed]

/-! ## Success -/

/-- An object is opened if it is there, unless a failure is scripted. -/
theorem opens_iff (unscripted : b.Unscripted d (.openObject oid mode : Directory.Op)) :
    (∃ r c, b.perform d (.openObject oid mode : Directory.Op) = (.ok r, c)) ↔
      (b.directoryOf d).holds oid = true := by
  constructor
  · rintro ⟨r, c, opened⟩
    obtain ⟨i, found, -⟩ := of_perform_openObject opened
    exact Directory.holds_iff.mpr ⟨i, found⟩
  · intro holds
    obtain ⟨i, found⟩ := Directory.holds_iff.mp holds
    have ran := Directory.run_openObject_of_some
      (b := b.noted d (.openObject oid mode : Directory.Op)) mode found
    exact ⟨_, _, perform_of_run_ok rfl unscripted ran⟩

/-- An object is taken out if it is there, unless a failure is scripted. -/
theorem unlinks_iff (unscripted : b.Unscripted d (.unlink oid : Directory.Op)) :
    (∃ c, b.perform d (.unlink oid : Directory.Op) = (.ok (), c)) ↔
      (b.directoryOf d).holds oid = true := by
  constructor
  · rintro ⟨c, unlinked⟩
    exact (of_perform_unlink unlinked).1
  · intro holds
    have ran := Directory.run_unlink_of_holds
      (b := b.noted d (.unlink oid : Directory.Op)) holds
    exact ⟨_, perform_of_run_ok rfl unscripted ran⟩

end Bench
end Simulation
end Cancelable
