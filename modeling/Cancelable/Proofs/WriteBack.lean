import Cancelable.Proofs.Origin

/-!
# What is written is read back

A write through a descriptor lays its bytes over those of the object, from the position on.  If the
object is too short it is filled up with zeros first.  Whatever is then done, other than writing to
the object or truncating it, the bytes can be read back where they were written, through any
descriptor of the object: the one they were written through, a copy, or one that was opened for the
same identifier, before or afterwards.

Main statements: what a write leaves (`Bench.written_of_perform`), and that it is read back
(`Bench.write_read_back`).
-/

namespace Cancelable
namespace Simulation

/-- Bytes after a patch has been written to them at a position. -/
structure Written (old : Bytes) (position : Nat) (patch new : Bytes) : Prop where
  size_eq : new.size = max old.size (position + patch.size)
  patched : ∀ i, i < patch.size → new[position + i]? = patch[i]?
  /-- Every other byte is what it was, or zero if there was none. -/
  around : ∀ i, i < new.size → i < position ∨ position + patch.size ≤ i →
    new[i]? = some (old[i]?.getD 0)

theorem written_overwrite (old : Bytes) (position : Nat) (patch : Bytes) :
    Written old position patch (old.overwrite position patch) where
  size_eq := old.size_overwrite position patch
  patched := by
    intro i within
    have there : position + i < max old.size (position + patch.size) := by omega
    have inside : position ≤ position + i ∧ position + i < position + patch.size := by omega
    simp [Bytes.getElem?_overwrite, there, within]
  around := by
    intro i within outside
    rw [Bytes.size_overwrite] at within
    have apart : ¬ (position ≤ i ∧ i < position + patch.size) := by omega
    rw [Bytes.getElem?_overwrite, if_pos within, if_neg apart]

namespace Bench

variable {b c d : Bench} {r q : Ref .largeObject} {events later : List Event} {patch : Bytes}
  {p : Nat}

/-! ## Writing -/

/-- A write lays its bytes over the others, and moves the descriptor behind them. -/
theorem written_of_perform (has : b.Has r) (stands : b.positionOf r = p)
    (written : b.perform r (.write patch : LargeObject.Op) = (.ok (), c)) :
    c.positionOf r = (p + patch.size : Nat) ∧ Written (b.bytesOf r) p patch (c.bytesOf r) ∧
      c.bytesOf r = (b.bytesOf r).overwrite p patch := by
  have start : (b.objectOf r).position.toNat = p := by
    have position : (b.objectOf r).position = p := stands
    simp [position]
  have moved : c.positionOf r = (p + patch.size : Nat) := by
    have object := objectOf_of_perform has written
    rw [← start]
    exact congrArg LargeObject.position object
  have bytes : c.bytesOf r = (b.bytesOf r).overwrite p patch := by
    have rewritten := bytesOf_of_perform has written
    rw [← start]
    exact rewritten
  refine ⟨moved, ?_, bytes⟩
  rw [bytes]
  exact written_overwrite (b.bytesOf r) p patch

/-! ## Moving and reading -/

/-- An open descriptor can be moved to any position of 63 bits. -/
theorem perform_seek_start (isOpen : (b.objectOf q).closed = false) (small : p < 0x8000000000000000)
    (unscripted : b.Unscripted q (.seek p .start : LargeObject.Op)) :
    ∃ c, b.perform q (.seek p .start : LargeObject.Op) = (.ok (), c) := by
  have fits : Width.int64.holds (0 + (p : Int)) = true := by
    rw [Width.holds_iff]
    simp only [Width.int64]
    omega
  have inside : 0 ≤ 0 + (p : Int) := by omega
  have answered : LargeObject.answer (b.objectOf q) (b.bytesOf q) b.largeObjects.size
      (.seek p .start) = .ok () := by
    simp only [LargeObject.answer, LargeObject.base, fits, inside, if_true]
  exact ⟨_, perform_of_answer_ok isOpen unscripted answered⟩

/-- A descriptor that stands where something was written, and reads as much. -/
theorem perform_read_written (isOpen : (b.objectOf q).closed = false)
    (unscripted : b.Unscripted q (.read patch.size : LargeObject.Op))
    (stands : b.positionOf q = p) {old : Bytes} (bytes : b.bytesOf q = old.overwrite p patch) :
    ∃ c, b.perform q (.read patch.size : LargeObject.Op) = (.ok patch, c) := by
  have size : p + patch.size ≤ (b.bytesOf q).size := by
    rw [bytes, Bytes.size_overwrite]
    omega
  have start : LargeObject.readStart (b.bytesOf q) p = p :=
    LargeObject.readStart_of_le (by omega)
  have stop : LargeObject.readStop (b.bytesOf q) p patch.size = p + patch.size := by
    rw [LargeObject.readStop_of_le (by omega)]
    omega
  have position : (b.objectOf q).position = p := stands
  have answered : LargeObject.answer (b.objectOf q) (b.bytesOf q) b.largeObjects.size
      (.read patch.size) = .ok patch := by
    simp only [LargeObject.answer, position, start, stop]
    rw [bytes, Bytes.extract_overwrite]
  exact ⟨_, perform_of_answer_ok isOpen unscripted answered⟩

/-! ## In between -/

/-- No event writes or truncates through a descriptor that shares bytes with `r` in the end. -/
def Spared (b : Bench) (r : Ref .largeObject) (events : List Event) : Prop :=
  ∀ e ∈ events, ∀ q, e.Rewrites q → ¬ b.Shares q r

/-- As long as nothing is written to them, or truncated, a descriptor has the same bytes. -/
theorem Steps.bytesOf_eq (grounded : b.Grounded) (has : b.Has r) (steps : Steps b events c)
    (spared : c.Spared r events) : c.bytesOf r = b.bytesOf r := by
  have home := steps.contents_objectOf has
  have kept := steps.contents_eq (grounded.descriptor r has) fun e mem q rewrites at_r =>
    spared e mem q rewrites (at_r.trans home.symm)
  calc
    c.bytesOf r = c.contents.get (c.objectOf r).contents := rfl
    _ = c.contents.get (b.objectOf r).contents := by rw [home]
    _ = b.bytesOf r := kept

/-- A descriptor that no event concerns stays as it is. -/
theorem Steps.objectOf_eq (has : b.Has r) (steps : Steps b events c)
    (apart : ∀ e ∈ events, ¬ e.concerns .largeObject r.index) : c.objectOf r = b.objectOf r := by
  induction steps with
  | nil => rfl
  | snoc before step ih =>
    have earlier := ih fun e mem => apart e (List.mem_append_left _ mem)
    have last := apart _ (List.mem_append_right _ (List.mem_singleton_self _))
    exact (step.kept.largeObjects.get_eq (before.has has) last).trans earlier

/-- What was written at `p` can be read back through every descriptor of the object that is open:
it is moved there, and then it reads what was written, even if other events come in between. -/
def ReadsBack (b : Bench) (r : Ref .largeObject) (p : Nat) (patch : Bytes) : Prop :=
  ∀ q, b.Has q → b.Shares q r → (b.objectOf q).closed = false →
    b.Unscripted q (.seek p .start : LargeObject.Op) →
      ∃ c, b.perform q (.seek p .start : LargeObject.Op) = (.ok (), c) ∧
        ∀ events d, Steps c events d → d.Spared r events →
          (∀ e ∈ events, ¬ e.concerns .largeObject q.index) →
            d.Unscripted q (.read patch.size : LargeObject.Op) →
              ∃ d', d.perform q (.read patch.size : LargeObject.Op) = (.ok patch, d')

theorem readsBack_of_bytesOf (grounded : b.Grounded) (has : b.Has r)
    (small : p < 0x8000000000000000) {old : Bytes} (bytes : b.bytesOf r = old.overwrite p patch) :
    b.ReadsBack r p patch := by
  intro q hasq shares isOpen unscripted
  obtain ⟨c, moved⟩ := perform_seek_start isOpen small unscripted
  refine ⟨c, moved, ?_⟩
  intro events d steps spared apart free
  have step : Step b _ c := Step.of_perform hasq moved
  -- the move changes the position of the descriptor, and the bytes of none
  have object := objectOf_of_perform hasq moved
  have kept : c.bytesOf q = old.overwrite p patch := by
    rw [bytesOf_of_perform hasq moved, ← bytes, ← shares.bytesOf_eq]
    rfl
  have last : d.objectOf q = c.objectOf q := steps.objectOf_eq (step.has hasq) apart
  have stands : d.positionOf q = p := by
    have position : (d.objectOf q).position = 0 + (p : Int) := by
      rw [last, object]
      rfl
    rw [Int.zero_add] at position
    exact position
  have still : (d.objectOf q).closed = false := by
    rw [last, object]
    exact isOpen
  have together : d.Shares q r :=
    (Steps.one step).trans steps |>.shares hasq has shares
  have unwritten : d.bytesOf q = old.overwrite p patch := by
    rw [← kept]
    refine steps.bytesOf_eq (step.grounded grounded) (step.has hasq) ?_
    intro e mem q' rewrites shares'
    exact spared e mem q' rewrites (shares'.trans together)
  exact perform_read_written still free stands unwritten

/-! ## Any time later -/

/-- A write through a descriptor leaves the old bytes, filled up with zeros if there are too few,
with the new ones in place from its position on, and moves it behind them.  After any further
events that neither write to the object nor truncate it, they are read back through each of its
descriptors. -/
theorem write_read_back (history : Steps {} events b) (has : b.Has r)
    (written : b.perform r (.write patch : LargeObject.Op) = (.ok (), c))
    (short : (c.bytesOf r).Short) :
    ∃ p : Nat,
      b.positionOf r = p ∧ c.positionOf r = (p + patch.size : Nat) ∧
      Written (b.bytesOf r) p patch (c.bytesOf r) ∧
      ∀ later d, Steps c later d → d.Spared r later → d.ReadsBack r p patch := by
  have reachable : b.Reachable := history.reachable .empty
  obtain ⟨p, stands⟩ := Int.eq_ofNat_of_zero_le (positioned_of_reachable reachable r)
  obtain ⟨moved, laid, bytes⟩ := written_of_perform has stands written
  refine ⟨p, stands, moved, laid, ?_⟩
  intro later d steps spared
  have step : Step b _ c := Step.of_perform has written
  have grounded : c.Grounded := step.grounded history.grounded
  have kept : d.bytesOf r = (b.bytesOf r).overwrite p patch :=
    (steps.bytesOf_eq grounded (step.has has) spared).trans bytes
  have low : p < 0x8000000000000000 := by
    have size := laid.size_eq
    have short : (c.bytesOf r).size < 0x8000000000000000 := short
    omega
  exact readsBack_of_bytesOf (steps.invariant grounded fun _ _ _ grounded step =>
    step.grounded grounded) ((Steps.one step).trans steps |>.has has) low kept

/-- A write beyond the end fills the gap with zeros, and what was written is read back through a
copy, after the descriptor that wrote it has been closed. -/
theorem write_beyond_end_read_back :
    (used [.copy, .seek 3 .start, .write #[1, 2]]).bytesOf ⟨1⟩ = #[0, 0, 0, 1, 2] ∧
      ∃ c, (used [.copy, .seek 3 .start, .write #[1, 2], .close]).perform
          (⟨1⟩ : Ref .largeObject) (.seek 3 .start : LargeObject.Op) = (.ok (), c) ∧
        ∃ d, c.perform (⟨1⟩ : Ref .largeObject) (.read 2 : LargeObject.Op) =
          (.ok #[1, 2], d) := by
  let r : Ref .largeObject := ⟨0⟩
  let later : List Event := [.performed r (.close : LargeObject.Op) (.ok ())]
  obtain ⟨events, history⟩ := steps_used [.copy, .seek 3 .start]
  have has : (used [.copy, .seek 3 .start]).Has r := Nat.zero_lt_succ 1
  have writes : (used [.copy, .seek 3 .start]).perform r (.write #[1, 2] : LargeObject.Op) =
      (.ok (), used [.copy, .seek 3 .start, .write #[1, 2]]) := Prod.ext rfl rfl
  have closes : (used [.copy, .seek 3 .start, .write #[1, 2]]).perform r
      (.close : LargeObject.Op) =
        (.ok (), used [.copy, .seek 3 .start, .write #[1, 2], .close]) := Prod.ext rfl rfl
  have short : ((used [.copy, .seek 3 .start, .write #[1, 2]]).bytesOf r).Short := by
    decide +kernel
  obtain ⟨p, stands, -, laid, reads⟩ := write_read_back history has writes short
  obtain rfl : p = 3 := Int.natCast_inj.mp (stands.symm.trans rfl)
  have closed : Steps _ later _ := .one (.of_perform ((Step.of_perform has writes).has has) closes)
  have spared : (used [.copy, .seek 3 .start, .write #[1, 2], .close]).Spared r later := by
    intro e mem q' rewrites
    rw [List.mem_singleton.mp mem] at rewrites
    exact absurd rewrites nofun
  obtain ⟨c, moved, back⟩ := reads later _ closed spared ⟨1⟩ (Nat.lt_succ_self 1) rfl rfl rfl
  obtain rfl : _ = c := congrArg Prod.snd moved
  exact ⟨rfl, _, moved, back [] _ .nil (by simp [Spared]) (by simp) rfl⟩

end Bench
end Simulation
end Cancelable
