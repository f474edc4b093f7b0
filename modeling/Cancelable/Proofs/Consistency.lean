import Cancelable.Proofs.Registry

/-!
# Directories in every history

A directory gives no identifier twice, it has the objects that it has created and that have not
been taken out of it, and it opens and gives up no others.  The descriptors of an object share their
bytes with one another and with nobody else, and they do not notice that their object is taken out
of the directory: operations on descriptors do not look at directories.

Main statements: operations on descriptors change no other bytes than theirs
(`Bench.contents_perform`), taking an object out of a directory makes no difference to descriptors
(`Bench.alike_unlink`), and what holds of every directory (`Bench.directories_consistent`).
-/

namespace Cancelable
namespace Simulation
namespace Bench

variable {b c : Bench} {d d₁ : Ref .directory} {oid oid₁ : Int} {r q : Ref .largeObject}
  {events : List Event}

/-! ## Operations on descriptors -/

/-- The bytes of an object that is in a directory. -/
def bytesAt (b : Bench) (d : Ref .directory) (oid : Int) : Option Bytes :=
  (b.directoryOf d).objects[oid]?.map b.contents.get

/-- An operation on a descriptor changes no other bytes than its own. -/
theorem contents_perform (o : LargeObject.Op) {i : Nat} (given : i < b.contents.size)
    (other : (b.objectOf r).contents ≠ i) :
    (b.perform r o).2.contents.get i = b.contents.get i := by
  refine (b.kept_perform r o).contents.get_eq given ?_
  intro own
  cases o with
  | write | truncate => exact other own.symm
  | oid | read | seek | tell | size | copy | close => exact own

theorem directories_perform (b : Bench) (r : Ref .largeObject) (o : LargeObject.Op) :
    (b.perform r o).2.directories = b.directories := by
  cases performed : b.perform r o with
  | mk answer c =>
    cases answer with
    | error stop => exact (same_of_perform_error performed).directories
    | ok x =>
      have same := sameObjects_of_perform performed
      exact same.directories.trans (directories_afterwards b r o)

/-! ## Taking objects out of a directory -/

theorem key_ne_unlink (o : LargeObject.Op) (oid : Int) :
    Op.key (a := .directory) (.unlink oid) ≠ Op.key (a := .largeObject) o := by
  cases o <;> simp [Op.key, Op.name, Algebra.name, Directory.Op.name, LargeObject.Op.name]

/-- To descriptors it makes no difference whether an object is still in the directory. -/
theorem alike_unlink (b : Bench) (d : Ref .directory) (oid : Int) :
    b.Alike (b.perform d (.unlink oid : Directory.Op)).2 := by
  cases performed : b.perform d (.unlink oid : Directory.Op) with
  | mk answer c =>
    cases answer with
    | ok x =>
      obtain ⟨-, contents, largeObjects, -⟩ := of_perform_unlink performed
      obtain ⟨-, -, ran⟩ := perform_eq_ok_iff.mp performed
      have keeps : Work.Keeps (fun c => c.probes = b.probes) (Directory.act d (.unlink oid)) :=
        Directory.keeps_act (fun _ _ _ same => same) (fun _ same => same)
          (fun _ _ _ same => same) (.unlink oid)
      have noted : (b.noted d (.unlink oid : Directory.Op)).probes = b.probes := rfl
      have probes : c.probes = b.probes := keeps noted ran
      exact ⟨⟨contents, largeObjects⟩, fun _ _ => by rw [probes]⟩
    | error stop =>
      have same := (same_of_perform_error performed).sameObjects
      refine ⟨same.toSameDescriptors, ?_⟩
      intro i o
      cases fails_of_perform performed with
      | away | stopped => rfl
      | faulted =>
        have key := key_ne_unlink o oid
        rw [fault?_forgotten, if_neg fun both => key both.2]

/-! ## Directories -/

/-- What holds of a directory after a history. -/
structure Consistent (b : Bench) (d : Ref .directory) (events : List Event) : Prop where
  /-- No identifier is given twice. -/
  fresh : (created d events).Nodup
  holds_iff : ∀ oid, (b.directoryOf d).holds oid = true ↔
    oid ∈ created d events ∧ oid ∉ unlinked d events
  opens_iff : ∀ oid mode, b.Unscripted d (.openObject oid mode : Directory.Op) →
    ((∃ r c, b.perform d (.openObject oid mode : Directory.Op) = (.ok r, c)) ↔
      (b.directoryOf d).holds oid = true)
  unlinks_iff : ∀ oid, b.Unscripted d (.unlink oid : Directory.Op) →
    ((∃ c, b.perform d (.unlink oid : Directory.Op) = (.ok (), c)) ↔
      (b.directoryOf d).holds oid = true)
  /-- The descriptors of an object have the same bytes, which no other descriptor has. -/
  shares_iff : ∀ oid r, Opened d oid events r →
    b.Has r ∧ ∀ r', b.Has r' → (b.Shares r r' ↔ Opened d oid events r')
  /-- An operation on one of them changes the bytes of no other descriptor or object. -/
  apart : ∀ oid r (o : LargeObject.Op), Opened d oid events r →
    (∀ r', b.Has r' → ¬ Opened d oid events r' →
      (b.perform r o).2.bytesOf r' = b.bytesOf r') ∧
    ∀ d' oid', b.Has d' → (d', oid') ≠ (d, oid) →
      (b.perform r o).2.bytesAt d' oid' = b.bytesAt d' oid'
  /-- Whatever is then done with descriptors comes to the same as if the object had not been taken
  out of the directory. -/
  spares : ∀ oid ops,
    transcript ops (b.perform d (.unlink oid : Directory.Op)).2 = transcript ops b

section Directories

variable {home : Ref .directory → Int → Nat} (registered : b.Registered events home)

include registered

theorem Registered.holds_iff (has : b.Has d) :
    (b.directoryOf d).holds oid = true ↔ oid ∈ created d events ∧ oid ∉ unlinked d events := by
  rw [Directory.holds_iff]
  constructor
  · rintro ⟨i, found⟩
    obtain ⟨before, linked, -⟩ := (registered.entry d oid i has).mp found
    exact ⟨before, linked⟩
  · rintro ⟨before, linked⟩
    exact ⟨_, (registered.entry d oid _ has).mpr ⟨before, linked, rfl⟩⟩

theorem Registered.shares_iff (hasr : b.Has r) (has : b.Has q) (opened : Opened d oid events r) :
    b.Shares r q ↔ Opened d oid events q := by
  obtain ⟨before, place⟩ := (registered.opened d oid r hasr).mp opened
  rw [registered.opened d oid q has, Shares, place]
  exact ⟨fun same => ⟨before, same.symm⟩, fun same => same.2.symm⟩

theorem Registered.bytesOf_perform (grounded : b.Grounded) (hasr : b.Has r) (has : b.Has q)
    (opened : Opened d oid events r) (other : ¬ Opened d oid events q) (o : LargeObject.Op) :
    (b.perform r o).2.bytesOf q = b.bytesOf q := by
  have ne : ¬ b.Shares r q := by
    intro shares
    exact other ((registered.shares_iff hasr has opened).mp shares)
  have place : ((b.perform r o).2.objectOf q).contents = (b.objectOf q).contents :=
    (Step.performed hasr o).contents_objectOf has
  calc
    (b.perform r o).2.bytesOf q
      = (b.perform r o).2.contents.get ((b.perform r o).2.objectOf q).contents := rfl
    _ = (b.perform r o).2.contents.get (b.objectOf q).contents := by rw [place]
    _ = b.bytesOf q := contents_perform o (grounded.descriptor q has) ne

theorem Registered.bytesAt_perform (hasr : b.Has r) (has : b.Has d₁)
    (opened : Opened d oid events r) (other : (d₁, oid₁) ≠ (d, oid)) (o : LargeObject.Op) :
    (b.perform r o).2.bytesAt d₁ oid₁ = b.bytesAt d₁ oid₁ := by
  obtain ⟨before, place⟩ := (registered.opened d oid r hasr).mp opened
  have same : (b.perform r o).2.directoryOf d₁ = b.directoryOf d₁ := by
    simp only [directoryOf, directories_perform]
  rw [bytesAt, bytesAt, same]
  cases found : (b.directoryOf d₁).objects[oid₁]? with
  | none => rfl
  | some i =>
    obtain ⟨before₁, -, rfl⟩ := (registered.entry d₁ oid₁ i has).mp found
    have ne : (b.objectOf r).contents ≠ home d₁ oid₁ := by
      intro same
      obtain ⟨rfl, rfl⟩ := registered.apart d oid d₁ oid₁ before before₁ (place.symm.trans same)
      exact other rfl
    exact congrArg some (contents_perform o (registered.stored d₁ oid₁ before₁) ne)

end Directories

/-- Whatever is done in whatever order, with whatever failures: a directory gives no identifier
twice, it has the objects that it has created and that have not been taken out of it, and those it
opens and gives up; the descriptors of an object share their bytes with one another and with no
others; and they do not notice that their object is taken out of the directory. -/
theorem directories_consistent (history : Steps {} events b) (has : b.Has d) :
    b.Consistent d events := by
  obtain ⟨home, registered⟩ := history.registered
  refine ⟨registered.nodup d, fun _ => registered.holds_iff has, fun _ _ => opens_iff,
    fun _ => unlinks_iff, ?_, ?_, ?_⟩
  · intro oid r opened
    have hasr := history.has_of_opened opened
    exact ⟨hasr, fun r' has' => registered.shares_iff hasr has' opened⟩
  · intro oid r o opened
    have hasr := history.has_of_opened opened
    constructor
    · intro r' has' other
      exact registered.bytesOf_perform history.grounded hasr has' opened other o
    · intro d' oid' has' other
      exact registered.bytesAt_perform hasr has' opened other o
  · intro oid ops
    exact (alike_unlink b d oid).transcript_eq ops

/-- A new directory, and operations on it in order. -/
def stocked (ops : List Directory.Op) : Bench :=
  ops.foldl (fun b o => (b.perform (⟨0⟩ : Ref .directory) o).2)
    (Scenario.ResourceSpec.place "main" .directory {}).2

/-- Two descriptors of an object that is no longer in its directory. -/
theorem consistent_after_unlink :
    ((stocked [.create .readWrite, .openObject 16384 .read, .openObject 16384 .write,
        .unlink 16384]).directoryOf ⟨0⟩).holds 16384 ≠ true ∧
      (stocked [.create .readWrite, .openObject 16384 .read, .openObject 16384 .write,
        .unlink 16384]).Shares ⟨0⟩ ⟨1⟩ := by
  let d : Ref .directory := ⟨0⟩
  have has : (stocked []).Has d := Nat.lt_succ_self 0
  have placed : Steps {} [.placed "main" .directory ⟨.directory, d⟩] (stocked []) :=
    .one (.placed "main" .directory)
  have creates : (stocked []).perform d (.create .readWrite : Directory.Op) =
      (.ok 16384, stocked [.create .readWrite]) := Prod.ext rfl rfl
  have opens : (stocked [.create .readWrite]).perform d
      (.openObject 16384 .read : Directory.Op) =
        (.ok ⟨0⟩, stocked [.create .readWrite, .openObject 16384 .read]) := Prod.ext rfl rfl
  have reopens : (stocked [.create .readWrite, .openObject 16384 .read]).perform d
      (.openObject 16384 .write : Directory.Op) =
        (.ok ⟨1⟩, stocked [.create .readWrite, .openObject 16384 .read,
          .openObject 16384 .write]) := Prod.ext rfl rfl
  have unlinks : (stocked [.create .readWrite, .openObject 16384 .read,
      .openObject 16384 .write]).perform d (.unlink 16384 : Directory.Op) =
        (.ok (), stocked [.create .readWrite, .openObject 16384 .read,
          .openObject 16384 .write, .unlink 16384]) := Prod.ext rfl rfl
  have first := Step.of_perform has creates
  have second := Step.of_perform (first.has has) opens
  have third := Step.of_perform (second.has (first.has has)) reopens
  have last := Step.of_perform (third.has (second.has (first.has has))) unlinks
  have history := (((placed.snoc first).snoc second).snoc third).snoc last
  have consistent := directories_consistent history
    (last.has (third.has (second.has (first.has has))))
  constructor
  · intro holds
    obtain ⟨-, linked⟩ := (consistent.holds_iff 16384).mp holds
    exact linked (mem_unlinked_snoc.mpr (.inr (Event.unlinks_eq_some.mpr rfl)))
  · obtain ⟨-, shares⟩ := consistent.shares_iff 16384 ⟨0⟩ (.opened (.tail _ (.tail _ (.head _))))
    have known : (stocked [.create .readWrite, .openObject 16384 .read, .openObject 16384 .write,
        .unlink 16384]).Has (⟨1⟩ : Ref .largeObject) := Nat.lt_succ_self 1
    exact (shares ⟨1⟩ known).mpr (.opened (.tail _ (.tail _ (.tail _ (.head _)))))

end Bench
end Simulation
end Cancelable
