import Cancelable.Proofs.Performance
import Cancelable.Scenario.Setting

/-!
# Where a large object is read

An open large object is a descriptor: it has a position of its own, and bytes that other descriptors
may share.  Whatever has been done on a bench, no position lies before the start of the bytes, but
one may lie beyond their end: it can be moved there, and the bytes can be cut through another
descriptor.

A read returns the bytes from the position on, as many as are asked for and present, and it moves
the position to where it stopped.  A read from beyond the end starts, and so stops, at the end.  It
returns nothing and yet moves the position, back to the end.

Neither depends on what has been done before, but for the sign of the position, so nothing is asked
of a bench here but that it can be reached in some way, even by using what has not been given out.
Where the record of what has been done matters, there are histories (`Bench.Steps`).  They use only
what has been given out, and all their benches are reachable (`Bench.Steps.reachable`).

Main statements: no position is negative (`Bench.positioned_of_reachable`); a read advances the
position by what it returned exactly if the position is not beyond the end
(`Bench.read_advances_iff`).
-/

namespace Cancelable
namespace Simulation

/-! ## Reachable benches -/

namespace Bench

/-- The benches that can come up: resources are placed, used, told to fail and notified, and entries
are written to the journals or removed, in any order.  What is used need not have been given out
before, and nothing is put on record. -/
inductive Reachable : Bench → Prop where
  | empty : Reachable {}
  | placed {b : Bench} (reachable : Reachable b) (journal : String) (spec : Scenario.ResourceSpec) :
    Reachable (spec.place journal b).2
  | performed {b : Bench} (reachable : Reachable b) {a : Algebra} (r : Ref a) (o : Op a) :
    Reachable (b.perform r o).2
  | scripted {b : Bench} (reachable : Reachable b) (probe : Nat) (op : String) (failure : Failure) :
    Reachable (b.failNext probe op failure)
  | hit {b : Bench} (reachable : Reachable b) (probe : Nat) (op detail : String) :
    Reachable (b.hit probe op detail).2
  | notified {b : Bench} (reachable : Reachable b) (r : Ref .connection)
      (channel payload : String) : Reachable (b.notify r channel payload)
  | journaled {b : Bench} (reachable : Reachable b) (name : String) (f : Journal → Journal) :
    Reachable (b.updateJournal name f)

/-- Where a descriptor stands. -/
def positionOf (b : Bench) (r : Ref .largeObject) : Int :=
  (b.largeObjects.get r.index).position

/-- The bytes that a descriptor reads and writes. -/
def bytesOf (b : Bench) (r : Ref .largeObject) : Bytes :=
  b.contents.get (b.largeObjects.get r.index).contents

/-- No descriptor stands before the start of its bytes. -/
def Positioned (b : Bench) : Prop :=
  ∀ r, 0 ≤ b.positionOf r

variable {b : Bench}

theorem positioned_newLargeObject (positioned : b.Positioned) (probe : Nat) (oid : Int)
    (contents : Nat) : (b.newLargeObject probe oid contents).2.Positioned := by
  intro r
  simp only [positionOf, newLargeObject, Cells.get_add]
  split
  · exact Int.le_refl 0
  · exact positioned r

end Bench

/-! ## What work does to the positions -/

open Work (keeps_bind keeps_get keeps_lift keeps_modify keeps_modifyGet keeps_pure keeps_read
  keeps_reject keeps_require)

namespace LargeObject

section Reading

variable {bytes : Bytes} {p : Nat}

theorem readStart_of_le (inside : p ≤ bytes.size) : readStart bytes p = p := by
  simp [readStart, inside]

theorem readStart_of_lt (beyond : bytes.size < p) : readStart bytes p = bytes.size := by
  simp [readStart, Nat.le_of_lt beyond]

theorem readStop_of_le (inside : p ≤ bytes.size) (len : Nat) :
    readStop bytes p len = min (p + len) bytes.size := by
  rw [readStop, readStart_of_le inside]

theorem readStop_of_lt (beyond : bytes.size < p) (len : Nat) :
    readStop bytes p len = bytes.size := by
  rw [readStop, readStart_of_lt beyond]
  omega

/-- From beyond the end no bytes are returned. -/
theorem extract_eq_empty (beyond : bytes.size < p) (stop : Nat) : bytes.extract p stop = #[] := by
  apply Array.eq_empty_of_size_eq_zero
  rw [Array.size_extract]
  omega

end Reading

theorem keeps_update (r : Ref .largeObject) {f : LargeObject → LargeObject}
    (inside : ∀ object, 0 ≤ object.position → 0 ≤ (f object).position) :
    Work.Keeps Bench.Positioned (update r f) := by
  refine keeps_modify fun b positioned => ?_
  intro other
  simp only [Bench.positionOf, Cells.get_set]
  split
  · exact inside _ (positioned r)
  · exact positioned other

/-- A descriptor is moved to a position that is not negative. -/
theorem keeps_move (r : Ref .largeObject) {position : Int} (inside : 0 ≤ position) :
    Work.Keeps Bench.Positioned (update r fun object => { object with position }) :=
  keeps_update r fun _ _ => inside

theorem keeps_replace (contents : Nat) (bytes : Bytes) :
    Work.Keeps Bench.Positioned (replace contents bytes) :=
  keeps_modify fun _ positioned => positioned

theorem keeps_positioned (r : Ref .largeObject) (o : LargeObject.Op) :
    Work.Keeps Bench.Positioned (act r o) := by
  cases o with
  | oid | tell | size => exact keeps_read _
  | read len =>
    refine keeps_bind keeps_get fun b => ?_
    exact keeps_bind (keeps_move r (Int.natCast_nonneg _)) fun _ => keeps_pure _
  | write patch =>
    refine keeps_bind keeps_get fun b => ?_
    exact keeps_bind (keeps_replace _ _) fun _ => keeps_move r (Int.natCast_nonneg _)
  | seek offset whence =>
    -- the one operation that names a position: it is checked before the descriptor is moved
    refine keeps_bind keeps_get fun b => ?_
    refine keeps_bind (keeps_lift _) fun target => ?_
    by_cases inside : 0 ≤ target
    · exact keeps_bind (keeps_require _ _) fun _ => keeps_move r inside
    · have refused : (Work.require (decide (0 ≤ target)) (.negativePosition target) : Work Unit) =
          Work.reject (.negativePosition target) := by
        simp [Work.require, inside]
      simp only [refused]
      intro b x b' _ ran
      cases ran
  | truncate len =>
    refine keeps_bind keeps_get fun b => ?_
    exact keeps_bind (keeps_require _ _) fun _ => keeps_replace _ _
  | copy =>
    refine keeps_bind keeps_get fun b => ?_
    exact keeps_modifyGet fun _ positioned => Bench.positioned_newLargeObject positioned _ _ _
  | close =>
    exact keeps_update r (f := fun object => { object with closed := true }) fun _ inside => inside

end LargeObject

namespace Bench

variable {b b' : Bench} {r : Ref .largeObject}

theorem keeps_positioned_work {a : Algebra} (r : Ref a) (o : Op a) :
    Work.Keeps Positioned (work r o) := by
  cases a with
  | connection => exact Connection.keeps_act (fun _ _ _ positioned => positioned) o
  | copyIn => exact CopyIn.keeps_act (fun _ _ _ positioned => positioned) o
  | copyOut => exact CopyOut.keeps_act (fun _ _ _ positioned => positioned) o
  | copyManager =>
    exact CopyManager.keeps_act (fun _ _ _ positioned => positioned)
      (fun _ _ _ _ positioned => positioned) o
  | fastpath => exact Fastpath.keeps_act (fun _ _ _ positioned => positioned) o
  | largeObject => exact LargeObject.keeps_positioned r o
  | directory =>
    exact Directory.keeps_act (fun _ _ _ positioned => positioned) (fun _ positioned => positioned)
      (fun _ _ _ positioned => positioned_newLargeObject positioned _ _ _) o

/-! ## Positions on reachable benches -/

theorem positioned_hit (positioned : b.Positioned) (probe : Nat) (op detail : String) :
    (b.hit probe op detail).2.Positioned := by
  have unmoved : (b.hit probe op detail).2.largeObjects = b.largeObjects := by
    simp only [hit]
    split
    · rfl
    · rfl
  intro r
  rw [positionOf, unmoved]
  exact positioned r

theorem positioned_place (positioned : b.Positioned) (journal : String)
    (spec : Scenario.ResourceSpec) : (spec.place journal b).2.Positioned := by
  cases spec with
  | largeObject oid => exact positioned_newLargeObject positioned _ _ _
  | directory | copyIn | copyOut | copyManager | fastpath | connection => exact positioned

/-- Whatever has been done, no descriptor stands before the start of its bytes. -/
theorem positioned_of_reachable (reachable : b.Reachable) : b.Positioned := by
  induction reachable with
  | empty => exact fun _ => Int.le_refl 0
  | placed _ journal spec positioned => exact positioned_place positioned journal spec
  | performed _ r o positioned =>
    exact holds_of_perform positioned (fun _ _ positioned => positioned)
      (fun _ _ positioned => positioned) (keeps_positioned_work r o)
  | scripted _ probe op failure positioned => exact positioned
  | hit _ probe op detail positioned => exact positioned_hit positioned probe op detail
  | notified _ r channel payload positioned => exact positioned
  | journaled _ name f positioned => exact positioned

/-! ## Reading -/

/-- What a read that succeeds returns, and where it leaves each descriptor and all bytes. -/
theorem of_perform_read {len : Nat} {bytes : Bytes}
    (read : b.perform r (.read len : LargeObject.Op) = (.ok bytes, b')) :
    bytes = (b.bytesOf r).extract (LargeObject.readStart (b.bytesOf r) (b.positionOf r))
        (LargeObject.readStop (b.bytesOf r) (b.positionOf r) len) ∧
      b'.positionOf r = LargeObject.readStop (b.bytesOf r) (b.positionOf r) len ∧
      (∀ other, other.index ≠ r.index → b'.positionOf other = b.positionOf other) ∧
      ∀ other, b'.bytesOf other = b.bytesOf other := by
  obtain ⟨-, -, ran⟩ := perform_eq_ok_iff.mp read
  cases ran
  refine ⟨rfl, ?_, ?_, ?_⟩
  · simp only [positionOf, Cells.get_set_self]
    rfl
  · intro other ne
    simp only [positionOf, Cells.get_set, if_neg ne.symm]
    rfl
  -- the descriptor that reads has other values than before, but the same bytes
  · intro other
    simp only [bytesOf, Cells.get_set]
    split
    · next eq => rw [← eq]; rfl
    · rfl

/-- A read that succeeds returns the bytes from the position on, as many as are asked for and
present, and no others are touched or moved.  It leaves the position as far on as there are bytes
returned exactly if the position was not beyond the end; from there it goes back to the end. -/
theorem read_advances_iff (reachable : b.Reachable) {len : Nat} {bytes : Bytes}
    (read : b.perform r (.read len : LargeObject.Op) = (.ok bytes, b')) :
    ∃ p : Nat,
      b.positionOf r = p ∧
      bytes = (b.bytesOf r).extract p (min (p + len) (b.bytesOf r).size) ∧
      bytes.size = min (p + len) (b.bytesOf r).size - p ∧
      (b'.positionOf r = p + bytes.size ↔ p ≤ (b.bytesOf r).size) ∧
      ((b.bytesOf r).size < p → bytes = #[] ∧ b'.positionOf r = (b.bytesOf r).size) ∧
      (∀ other, other.index ≠ r.index → b'.positionOf other = b.positionOf other) ∧
      ∀ other, b'.bytesOf other = b.bytesOf other := by
  obtain ⟨p, stands⟩ := Int.eq_ofNat_of_zero_le (positioned_of_reachable reachable r)
  obtain ⟨returned, moved, others, kept⟩ := of_perform_read read
  rw [stands] at returned moved
  refine ⟨p, stands, ?_⟩
  by_cases inside : p ≤ (b.bytesOf r).size
  · rw [LargeObject.readStart_of_le inside, LargeObject.readStop_of_le inside] at returned
    rw [LargeObject.readStop_of_le inside] at moved
    have size : bytes.size = min (p + len) (b.bytesOf r).size - p := by
      rw [returned, Array.size_extract]
      omega
    have advanced : b'.positionOf r = p + bytes.size := by
      rw [moved, size]
      omega
    refine ⟨returned, size, ?_, ?_, others, kept⟩
    · exact ⟨fun _ => inside, fun _ => advanced⟩
    · intro beyond
      omega
  · have beyond : (b.bytesOf r).size < p := Nat.lt_of_not_le inside
    rw [LargeObject.readStart_of_lt beyond, LargeObject.readStop_of_lt beyond] at returned
    rw [LargeObject.readStop_of_lt beyond] at moved
    have none : bytes = #[] := by
      rw [returned, Array.extract_empty_of_stop_le_start (Nat.le_refl _)]
    refine ⟨?_, ?_, ?_, fun _ => ⟨none, moved⟩, others, kept⟩
    · rw [none, LargeObject.extract_eq_empty beyond]
    · rw [none, Array.size_empty]
      omega
    · -- the position goes back to the end, so it is not where it was
      rw [none, Array.size_empty, moved]
      omega

/-! ## One object, two descriptors -/

/-- A new large object, which is empty, and operations on it in order. -/
def used (ops : List LargeObject.Op) : Bench :=
  ops.foldl (fun b o => (b.perform (⟨0⟩ : Ref .largeObject) o).2)
    (Scenario.ResourceSpec.place "main" (.largeObject 1) {}).2

/-- What holds of the new object and is kept by each operation holds after all of them. -/
theorem used_invariant {I : Bench → Prop}
    (start : I (Scenario.ResourceSpec.place "main" (.largeObject 1) {}).2)
    (kept : ∀ b (o : LargeObject.Op), I b → I (b.perform (⟨0⟩ : Ref .largeObject) o).2)
    (ops : List LargeObject.Op) : I (used ops) := by
  unfold used
  generalize (Scenario.ResourceSpec.place "main" (.largeObject 1) {}).2 = b at start
  induction ops generalizing b with
  | nil => exact start
  | cons o rest ih => exact ih _ (kept b o start)

theorem reachable_used (ops : List LargeObject.Op) : (used ops).Reachable :=
  used_invariant (.placed .empty "main" (.largeObject 1))
    (fun _ o reachable => .performed reachable (⟨0⟩ : Ref .largeObject) o) ops

/-- The second descriptor of an object reads what was written through the first. -/
theorem read_advances_through_copy :
    let b := used [.write #[1, 2, 3], .copy]
    let read := b.perform (⟨1⟩ : Ref .largeObject) (.read 2 : LargeObject.Op)
    b.Reachable ∧ read.1 = .ok #[1, 2] ∧ read.2.positionOf ⟨1⟩ = 2 := by
  intro b read
  have returned : b.perform (⟨1⟩ : Ref .largeObject) (.read 2 : LargeObject.Op) =
      (.ok #[1, 2], read.2) := Prod.ext rfl rfl
  obtain ⟨p, stands, -, -, advances, -⟩ := read_advances_iff (reachable_used _) returned
  have start : p = 0 := Int.natCast_inj.mp (stands.symm.trans rfl)
  subst start
  exact ⟨reachable_used _, rfl, advances.mpr (Nat.zero_le _)⟩

/-- A descriptor that stands beyond the end of an empty object, and reads there: nothing is
returned, and it stands at the end. -/
theorem read_beyond_end_goes_back :
    let b := used [.seek 5 .start]
    let read := b.perform (⟨0⟩ : Ref .largeObject) (.read 1 : LargeObject.Op)
    b.Reachable ∧ b.positionOf ⟨0⟩ = 5 ∧ read.1 = .ok #[] ∧ read.2.positionOf ⟨0⟩ = 0 :=
  ⟨reachable_used _, rfl, rfl, rfl⟩

end Bench
end Simulation
end Cancelable
