import Cancelable.Proofs.Objects

/-!
# Where descriptors come from

A descriptor comes with an object of its own, as a copy of another descriptor, or for an object of a
directory, and directories are empty when they are placed.  So whatever refers to bytes refers to
bytes that are there, and the bytes of what is new are nobody else's.

Main statements: the origin of a descriptor (`Bench.Step.originates`) and of a directory
(`Bench.Step.objects_of_fresh`), and that all references to bytes are sound
(`Bench.Steps.grounded`).
-/

namespace Cancelable
namespace Simulation
namespace Bench

variable {b c d : Bench} {r r' : Ref .largeObject} {e : Event} {events : List Event}

/-! ## New descriptors -/

/-- How a descriptor comes to be: with an object of its own, as a copy of another one, or for an
object of a directory. -/
inductive Originates (b c : Bench) (r : Ref .largeObject) : Event → Prop where
  | placed {journal : String} {oid : Int}
    (object : c.objectOf r = { probe := b.probes.size, oid, contents := b.contents.size })
    (contents : c.contents = (b.contents.add #[]).2) :
    Originates b c r (.placed journal (.largeObject oid) ⟨.largeObject, r⟩)
  | copied {q : Ref .largeObject} (has : b.Has q)
    (copied : b.perform q (.copy : LargeObject.Op) = (.ok r, c)) :
    Originates b c r (.performed q (.copy : LargeObject.Op) (.ok r))
  | opened {d : Ref .directory} {oid : Int} {mode : Directory.Access} (has : b.Has d)
    (opened : b.perform d (.openObject oid mode : Directory.Op) = (.ok r, c)) :
    Originates b c r (.performed d (.openObject oid mode : Directory.Op) (.ok r))

/-- What was given out last has the last number. -/
theorem eq_of_fresh (fresh : ¬ b.Has r) (last : r.index < b.largeObjects.size + 1) :
    r = ⟨b.largeObjects.size⟩ := by
  obtain ⟨i⟩ := r
  have le : b.largeObjects.size ≤ i := Nat.le_of_not_lt fresh
  have eq : i = b.largeObjects.size := Nat.le_antisymm (Nat.le_of_lt_succ last) le
  rw [eq]

/-- Of the operations on a descriptor only copying makes another one. -/
theorem size_afterwards {q : Ref .largeObject} {o : LargeObject.Op} (other : o ≠ .copy) :
    (b.afterwards q o).largeObjects.size = b.largeObjects.size := by
  cases o with
  | copy => exact absurd rfl other
  | oid | tell | size | read | seek | close | write | truncate => rfl

theorem originates_of_perform {q : Ref .largeObject} {o : LargeObject.Op}
    {x : LargeObject.Op.Answer Ref o} (fresh : ¬ b.Has r) (has : c.Has r) (given : b.Has q)
    (performed : b.perform q o = (.ok x, c)) :
    Originates b c r (.performed q o (.ok x)) := by
  obtain ⟨-, -, answered, eq⟩ := of_perform_eq_ok performed
  by_cases copy : o = .copy
  · subst copy
    have last : r.index < b.largeObjects.size + 1 := by
      rw [eq] at has
      exact has
    obtain rfl := eq_of_fresh fresh last
    cases answered
    exact .copied given performed
  · rw [eq, Has, Bench.given, size_afterwards copy] at has
    exact absurd has fresh

theorem originates_of_directory {q : Ref .directory} {o : Directory.Op}
    {x : Directory.Op.Answer Ref o} (fresh : ¬ b.Has r) (has : c.Has r) (given : b.Has q)
    (performed : b.perform q o = (.ok x, c)) :
    Originates b c r (.performed q o (.ok x)) := by
  cases o with
  | create mode =>
    obtain ⟨-, -, same, -⟩ := of_perform_create performed
    rw [Has, Bench.given, same] at has
    exact absurd has fresh
  | unlink oid =>
    obtain ⟨-, -, same, -⟩ := of_perform_unlink performed
    rw [Has, Bench.given, same] at has
    exact absurd has fresh
  | openObject oid mode =>
    obtain ⟨i, -, index, -, -, added⟩ := of_perform_openObject performed
    have last : r.index < b.largeObjects.size + 1 := by
      rw [Has, Bench.given, added] at has
      exact has
    obtain rfl := eq_of_fresh fresh last
    obtain rfl : x = ⟨b.largeObjects.size⟩ := by
      obtain ⟨j⟩ := x
      exact congrArg Ref.mk index
    exact .opened given performed

/-- Every descriptor comes to be in one of these ways. -/
theorem Step.originates (fresh : ¬ b.Has r) (has : c.Has r) (step : Step b e c) :
    Originates b c r e := by
  cases step with
  | scripted | notified | journaled => exact absurd has fresh
  | hit _ op detail => exact absurd ((sameObjects_hit b _ op detail).has has) fresh
  | placed journal spec =>
    cases spec with
    | directory | copyIn | copyOut | copyManager | fastpath | connection =>
      exact absurd has fresh
    | largeObject oid =>
      obtain rfl := eq_of_fresh fresh has
      exact .placed ((Cells.get_add _ _ _).trans (if_pos rfl)) rfl
  | @performed a q given o =>
    by_cases known : a ≠ .largeObject ∧ a ≠ .directory
    · exact absurd ((sameObjects_perform q o known.1 known.2).has has) fresh
    · cases performed : b.perform q o with
      | mk answer d =>
        rw [performed] at has
        cases answer with
        | error stop =>
          exact absurd ((same_of_perform_error performed).sameObjects.has has) fresh
        | ok x =>
          cases a with
          | largeObject => exact originates_of_perform fresh has given performed
          | directory => exact originates_of_directory fresh has given performed
          | connection | copyIn | copyOut | copyManager | fastpath =>
            exact absurd ⟨nofun, nofun⟩ known

/-- A descriptor starts at the first byte, and open. -/
theorem Originates.starts (originates : Originates b c r e) :
    (c.objectOf r).position = 0 ∧ (c.objectOf r).closed = false := by
  cases originates with
  | placed object =>
    rw [object]
    exact ⟨rfl, rfl⟩
  | copied _ copied =>
    rw [objectOf_of_copy copied]
    exact ⟨rfl, rfl⟩
  | opened _ opened =>
    obtain ⟨i, -, index, -, -, added⟩ := of_perform_openObject opened
    rw [objectOf, added, Cells.get_add, if_pos index.symm]
    exact ⟨rfl, rfl⟩

/-! ## Where bytes are -/

/-- Performing an operation gives out no directory. -/
theorem size_directories_perform {a : Algebra} (q : Ref a) (o : Op a) :
    (b.perform q o).2.directories.size = b.directories.size := by
  cases performed : b.perform q o with
  | mk answer c =>
    cases answer with
    | error stop => exact congrArg Cells.size (same_of_perform_error performed).directories
    | ok x =>
      cases a with
      | largeObject =>
        obtain ⟨-, -, -, rfl⟩ := of_perform_eq_ok performed
        cases o with
        | oid | read | write | seek | tell | size | truncate | copy | close => rfl
      | directory =>
        cases o with
        | create mode => rw [(of_perform_create performed).2.2.2]; rfl
        | unlink oid => rw [(of_perform_unlink performed).2.2.2]; rfl
        | openObject oid mode =>
          obtain ⟨-, -, -, -, same, -⟩ := of_perform_openObject performed
          exact congrArg Cells.size same
      | connection | copyIn | copyOut | copyManager | fastpath =>
        have same := sameObjects_perform (b := b) q o nofun nofun
        rw [performed] at same
        exact congrArg Cells.size same.directories

/-- A directory is empty when it is placed. -/
theorem Step.objects_of_fresh {q : Ref .directory} (fresh : ¬ b.Has q) (has : c.Has q)
    (step : Step b e c) :
    (c.directoryOf q).objects = ∅ ∧ ∃ journal spec resource, e = .placed journal spec resource := by
  cases step with
  | scripted | notified | journaled => exact absurd has fresh
  | hit _ op detail =>
    rw [Has, given, (sameObjects_hit b _ op detail).directories] at has
    exact absurd has fresh
  | performed _ o =>
    rw [Has, given, size_directories_perform] at has
    exact absurd has fresh
  | placed journal spec =>
    refine ⟨?_, _, _, _, rfl⟩
    cases spec with
    | largeObject | copyIn | copyOut | copyManager | fastpath => exact absurd has fresh
    | directory | connection =>
      obtain ⟨i⟩ := q
      have le : b.directories.size ≤ i := Nat.le_of_not_lt fresh
      have last : i < b.directories.size + 1 := has
      obtain rfl : b.directories.size = i := Nat.le_antisymm le (Nat.le_of_lt_succ last)
      exact congrArg Simulation.Directory.objects ((Cells.get_add _ _ _).trans (if_pos rfl))

/-- Descriptors and directories refer to bytes that are there. -/
structure Grounded (b : Bench) : Prop where
  descriptor : ∀ r : Ref .largeObject, b.Has r → (b.objectOf r).contents < b.contents.size
  entry : ∀ (q : Ref .directory) (oid : Int) (i : Nat), b.Has q →
    (b.directoryOf q).objects[oid]? = some i → i < b.contents.size

theorem Step.grounded (grounded : b.Grounded) (step : Step b e c) : c.Grounded := by
  have grown : b.contents.size ≤ c.contents.size := step.kept.contents.size_le
  constructor
  · intro r has
    by_cases known : b.Has r
    · rw [step.contents_objectOf known]
      exact Nat.lt_of_lt_of_le (grounded.descriptor r known) grown
    · cases step.originates known has with
      | placed object contents =>
        rw [object, contents]
        exact Nat.lt_succ_self _
      | @copied q given copied =>
        rw [objectOf_of_copy copied]
        exact Nat.lt_of_lt_of_le (grounded.descriptor q given) grown
      | @opened q oid mode given opened =>
        obtain ⟨i, found, index, -, -, added⟩ := of_perform_openObject opened
        rw [objectOf, added, Cells.get_add, if_pos index.symm]
        exact Nat.lt_of_lt_of_le (grounded.entry q oid i given found) grown
  · intro q oid i has found
    by_cases known : b.Has q
    · rcases step.directoryOf_cases known with same | ⟨o, x, -, performed⟩
      · rw [same] at found
        exact Nat.lt_of_lt_of_le (grounded.entry q oid i known found) grown
      · cases o with
        | openObject oid' mode =>
          rw [directoryOf_of_openObject performed] at found
          exact Nat.lt_of_lt_of_le (grounded.entry q oid i known found) grown
        | unlink oid' =>
          rw [objects_of_unlink performed] at found
          split at found
          · cases found
          · exact Nat.lt_of_lt_of_le (grounded.entry q oid i known found) grown
        | create mode =>
          rw [objects_of_create performed] at found
          split at found
          · cases found
            rw [(of_perform_create performed).2.1]
            exact Nat.lt_succ_self _
          · exact Nat.lt_of_lt_of_le (grounded.entry q oid i known found) grown
    · rw [(step.objects_of_fresh known has).1] at found
      simp at found

theorem Steps.grounded (steps : Steps {} events b) : b.Grounded := by
  have empty : Grounded {} := ⟨fun _ has => absurd has (Nat.not_lt_zero _),
    fun _ _ _ has => absurd has (Nat.not_lt_zero _)⟩
  exact steps.invariant empty fun _ _ _ grounded step => step.grounded grounded

end Bench
end Simulation
end Cancelable
