import Cancelable.Proofs.Origin

/-!
# Integers of 64 bits

The positions and lengths of the library are unbounded.  A resource computes with integers of 64
bits: it casts positions to lengths and back, a sum that leaves the integers breaks off the caller,
and so does a slice that does not lie inside the bytes.  Here the operations on a descriptor are
computed in that way.  As long as there are fewer than 2⁶³ bytes it makes no difference, except that
a seek is broken off if its target is no integer of 64 bits.

Main statements: computed in 64 bits an operation comes to the same (`LargeObject.compute_eq`), and
what holds of every descriptor in every history (`Bench.descriptors_guarded`).
-/

namespace Cancelable

/-- Integers of the range are not changed. -/
theorem Width.wrap_of_holds {w : Width} {n : Int} (holds : w.holds n = true) : w.wrap n = n := by
  obtain ⟨low, high⟩ := holds_iff.mp holds
  have small : (n - w.low) % (w.high - w.low + 1) = n - w.low :=
    Int.emod_eq_of_lt (by omega) (by omega)
  rw [wrap, small]
  omega

namespace Simulation
namespace LargeObject

/-! ## Computing in 64 bits -/

/-- A position, or an offset, cast to a length. -/
def toLength (n : Int) : Nat :=
  (Width.length.wrap n).toNat

/-- A length cast to a position. -/
def toPosition (n : Nat) : Int :=
  Width.int64.wrap n

/-- A sum, unless it leaves the range. -/
def checked (w : Width) (n : Int) : Option Int :=
  if w.holds n then some n else none

/-- A slice, unless it does not lie inside. -/
def slice? (bytes : Bytes) (start stop : Nat) : Option Bytes :=
  if start ≤ stop ∧ stop ≤ bytes.size then some (bytes.extract start stop) else none

/-- Bytes with those of a slice replaced, which must be as many. -/
def splice? (bytes : Bytes) (start stop : Nat) (patch : Bytes) : Option Bytes :=
  if start ≤ stop ∧ stop ≤ bytes.size ∧ patch.size = stop - start then
    some (bytes.extract 0 start ++ patch ++ bytes.extract stop bytes.size)
  else none

/-- An operation on an open descriptor, computed in 64 bits: its answer, the descriptor and the
bytes afterwards, or nothing if the caller is broken off. -/
def compute (object : LargeObject) (bytes : Bytes) (number : Nat) :
    (o : LargeObject.Op) →
      Option (Except Rejection (LargeObject.Op.Answer Ref o) × LargeObject × Bytes)
  | .oid => some (.ok object.oid, object, bytes)
  | .read len => do
    let start := min (toLength object.position) bytes.size
    let stop := min (min (start + len) Width.length.high.toNat) bytes.size
    let slice ← slice? bytes start stop
    return (.ok slice, { object with position := toPosition stop }, bytes)
  | .write patch => do
    let start := toLength object.position
    let stop := (← checked Width.length (start + patch.size)).toNat
    let bytes := if bytes.size < stop then bytes.resize stop else bytes
    let bytes ← splice? bytes start stop patch
    return (.ok (), { object with position := toPosition stop }, bytes)
  | .seek offset whence => do
    let base :=
      match whence with
      | .start => 0
      | .current => object.position
      | .finish => toPosition bytes.size
    let target ← checked Width.int64 (base + offset)
    if target < 0 then return (.error (.negativePosition target), object, bytes)
    return (.ok (), { object with position := target }, bytes)
  | .tell => some (.ok object.position, object, bytes)
  | .size => some (.ok (toPosition bytes.size), object, bytes)
  | .truncate len =>
    if Width.length.holds len then some (.ok (), object, bytes.resize len.toNat)
    else some (.error (.invalidLength len), object, bytes)
  | .copy => some (.ok ⟨number⟩, object, bytes)
  | .close => some (.ok (), { object with closed := true }, bytes)

/-- What an operation on an open descriptor comes to.  One that is rejected changes nothing. -/
def outcome (object : LargeObject) (bytes : Bytes) (number : Nat) (o : LargeObject.Op) :
    Option (Except Rejection (LargeObject.Op.Answer Ref o) × LargeObject × Bytes) :=
  match answer object bytes number o with
  | .ok x => some (.ok x, next object bytes o, rewrite object bytes o)
  | .error (.rejected why) => some (.error why, object, bytes)
  | .error _ => none

/-- A position of 64 bits that is not negative. -/
def InBounds (object : LargeObject) : Prop :=
  0 ≤ object.position ∧ object.position ≤ Width.int64.high

variable {object : LargeObject} {bytes : Bytes} {number : Nat}

theorem toLength_position (bounds : InBounds object) :
    toLength object.position = object.position.toNat := by
  have holds : Width.length.holds object.position = true := by
    obtain ⟨low, high⟩ := bounds
    rw [Width.holds_iff]
    simp only [Width.length, Width.int64] at *
    omega
  rw [toLength, Width.wrap_of_holds holds]

theorem toPosition_of_lt {n : Nat} (small : n < 0x8000000000000000) : toPosition n = n := by
  have holds : Width.int64.holds n = true := by
    rw [Width.holds_iff]
    simp only [Width.int64]
    omega
  rw [toPosition, Width.wrap_of_holds holds]

theorem compute_read (bounds : InBounds object) (short : bytes.Short) (len : Nat) :
    compute object bytes number (.read len) = outcome object bytes number (.read len) := by
  have short : bytes.size < 0x8000000000000000 := short
  have stop : min (min (readStart bytes object.position + len) Width.length.high.toNat)
      bytes.size = readStop bytes object.position len := by
    simp only [readStop, Width.length]
    omega
  have inside : readStart bytes object.position ≤ readStop bytes object.position len ∧
      readStop bytes object.position len ≤ bytes.size := by
    simp only [readStop, readStart]
    omega
  have small : readStop bytes object.position len < 0x8000000000000000 := by omega
  have start : min (toLength object.position) bytes.size = readStart bytes object.position := by
    rw [toLength_position bounds, readStart]
  simp only [compute, start, stop, slice?, inside, toPosition_of_lt small]
  rfl

theorem compute_write (bounds : InBounds object) {patch : Bytes}
    (room : (rewrite object bytes (.write patch)).Short) :
    compute object bytes number (.write patch) = outcome object bytes number (.write patch) := by
  let stop := object.position.toNat + patch.size
  have small : stop < 0x8000000000000000 := by
    rw [Bytes.Short, rewrite, Bytes.size_overwrite] at room
    omega
  have sum : checked Width.length (object.position.toNat + patch.size) = some (stop : Int) := by
    have holds : Width.length.holds (stop : Int) = true := by
      rw [Width.holds_iff]
      simp only [Width.length]
      omega
    exact if_pos holds
  -- the bytes have been made long enough when the slice is replaced
  have inside : stop ≤ (if bytes.size < stop then bytes.resize stop else bytes).size := by
    split
    · exact Nat.le_of_eq (Bytes.size_resize bytes stop).symm
    · omega
  have replaced : splice? (if bytes.size < stop then bytes.resize stop else bytes)
      object.position.toNat stop patch = some (bytes.overwrite object.position.toNat patch) := by
    rw [splice?, if_pos ⟨Nat.le_add_right _ _, inside, (Nat.add_sub_cancel_left _ _).symm⟩]
    rfl
  simp only [compute, sum, toLength_position bounds, Option.bind_eq_bind, Option.bind_some,
    Int.toNat_natCast, replaced, toPosition_of_lt small]
  rfl

theorem compute_seek (short : bytes.Short) (offset : Int) (whence : LargeObject.Whence) :
    compute object bytes number (.seek offset whence) =
      outcome object bytes number (.seek offset whence) := by
  have from_base : (match whence with
      | .start => 0
      | .current => object.position
      | .finish => toPosition bytes.size) = base bytes object.position whence := by
    cases whence with
    | start | current => rfl
    | finish => exact toPosition_of_lt short
  simp only [compute, from_base, checked, outcome, answer]
  split
  · next holds =>
    by_cases inside : 0 ≤ base bytes object.position whence + offset
    · have not_before : ¬ base bytes object.position whence + offset < 0 := by omega
      simp [inside, not_before, next, rewrite]
    · have before : base bytes object.position whence + offset < 0 := by omega
      simp [inside, before]
  · rfl

theorem compute_truncate {len : Int} (room : (rewrite object bytes (.truncate len)).Short) :
    compute object bytes number (.truncate len) = outcome object bytes number (.truncate len) := by
  rw [Bytes.Short, rewrite, Bytes.size_resize] at room
  by_cases inside : 0 ≤ len
  · have holds : Width.length.holds len = true := by
      rw [Width.holds_iff]
      simp only [Width.length]
      omega
    simp [compute, outcome, answer, holds, inside, next, rewrite]
  · have outside : ¬ Width.length.holds len = true := by
      rw [Width.holds_iff]
      simp only [Width.length]
      omega
    simp [compute, outcome, answer, outside, inside]

/-- Computed in 64 bits an operation comes to the same, as long as it leaves fewer than 2⁶³ bytes:
no cast changes an integer, no slice lies outside, and no sum leaves the integers but that of a
seek. -/
theorem compute_eq (bounds : InBounds object) (short : bytes.Short) {o : LargeObject.Op}
    (room : (rewrite object bytes o).Short) :
    compute object bytes number o = outcome object bytes number o := by
  cases o with
  | oid | tell | copy | close => rfl
  | size => simp [compute, outcome, answer, next, rewrite, toPosition_of_lt short]
  | read len => exact compute_read bounds short len
  | write patch => exact compute_write bounds room
  | seek offset whence => exact compute_seek short offset whence
  | truncate len => exact compute_truncate room

/-- Only a seek breaks off the caller. -/
theorem answer_eq_overflow_iff {o : LargeObject.Op} :
    answer object bytes number o = .error .overflow ↔
      ∃ offset whence, o = .seek offset whence ∧
        Width.int64.holds (base bytes object.position whence + offset) = false := by
  cases o with
  | oid | read | write | tell | size | copy | close => simp [answer]
  | truncate len =>
    by_cases inside : 0 ≤ len
    · simp [answer, inside]
    · simp [answer, inside]
  | seek offset whence =>
    cases holds : Width.int64.holds (base bytes object.position whence + offset) with
    | false =>
      simp only [answer, holds]
      exact ⟨fun _ => ⟨offset, whence, rfl, holds⟩, fun _ => rfl⟩
    | true =>
      by_cases inside : 0 ≤ base bytes object.position whence + offset
      · simp [answer, holds, inside]
      · simp [answer, holds, inside]

end LargeObject

/-! ## Positions in a history -/

namespace Bench

variable {b c d : Bench} {r q : Ref .largeObject} {o : LargeObject.Op} {e : Event}
  {events : List Event}

/-- The bytes of all descriptors are short. -/
def Fits (b : Bench) : Prop :=
  ∀ r : Ref .largeObject, b.Has r → (b.bytesOf r).Short

instance (b : Bench) : Decidable b.Fits :=
  decidable_of_iff (∀ i < b.largeObjects.size, (b.bytesOf ⟨i⟩).Short)
    ⟨fun all r has => all r.index has, fun fits i given => fits ⟨i⟩ given⟩

theorem inBounds_next (bounds : (b.objectOf r).InBounds) (short : (b.bytesOf r).Short)
    {x : LargeObject.Op.Answer Ref o}
    (answered : LargeObject.answer (b.objectOf r) (b.bytesOf r) b.largeObjects.size o = .ok x)
    (room : (LargeObject.rewrite (b.objectOf r) (b.bytesOf r) o).Short) :
    (LargeObject.next (b.objectOf r) (b.bytesOf r) o).InBounds := by
  cases o with
  | oid | tell | size | truncate | copy | close => exact bounds
  | read len =>
    have stop : LargeObject.readStop (b.bytesOf r) (b.objectOf r).position len ≤
        (b.bytesOf r).size := Nat.min_le_right _ _
    simp only [LargeObject.InBounds, LargeObject.next, Width.int64, Bytes.Short] at *
    omega
  | write patch =>
    rw [Bytes.Short, LargeObject.rewrite, Bytes.size_overwrite] at room
    simp only [LargeObject.InBounds, LargeObject.next, Width.int64]
    omega
  | seek offset whence =>
    simp only [LargeObject.answer] at answered
    split at answered
    · next holds =>
      split at answered
      · next inside => exact ⟨inside, (Width.holds_iff.mp holds).2⟩
      · cases answered
    · cases answered

theorem Step.inBounds (bounds : ∀ r, b.Has r → (b.objectOf r).InBounds) (before : b.Fits)
    (after : c.Fits) (step : Step b e c) (has : c.Has r) : (c.objectOf r).InBounds := by
  by_cases known : b.Has r
  · rcases step.objectOf_cases known with same | ⟨o, x, -, performed⟩
    · rw [same]
      exact bounds r known
    · have room := after r has
      rw [bytesOf_of_perform known performed] at room
      rw [objectOf_of_perform known performed]
      obtain ⟨-, -, answered, -⟩ := of_perform_eq_ok performed
      exact inBounds_next (bounds r known) (before r known) answered room
  · obtain ⟨position, -⟩ := (step.originates known has).starts
    rw [LargeObject.InBounds, position]
    decide

/-- The bytes fit at each point of a history. -/
def Roomy (events : List Event) : Prop :=
  ∀ before c, before <+: events → Steps {} before c → c.Fits

theorem Roomy.of_append {later : List Event} (roomy : Roomy (events ++ later)) : Roomy events :=
  fun before c initial => roomy before c (initial.trans (List.prefix_append events later))

theorem roomy_nil : Roomy [] := by
  intro before c initial steps
  obtain rfl := List.prefix_nil.mp initial
  obtain rfl := steps.det .nil
  exact fun r has => absurd has (Nat.not_lt_zero _)

/-- One more point of a history at which the bytes fit. -/
theorem Roomy.snoc (roomy : Roomy events) (steps : Steps {} (events ++ [e]) b) (fits : b.Fits) :
    Roomy (events ++ [e]) := by
  intro before c initial steps'
  rcases List.prefix_concat_iff.mp initial with rfl | earlier
  · exact steps.det steps' ▸ fits
  · exact roomy before c earlier steps'

/-- In a history in which the bytes always fit, all positions are within bounds. -/
theorem Steps.inBounds (history : Steps {} events b) (roomy : Roomy events) (has : b.Has r) :
    (b.objectOf r).InBounds := by
  induction history generalizing r with
  | nil => exact absurd has (Nat.not_lt_zero _)
  | @snoc earlier c d e before step ih =>
    have fits := roomy earlier c (List.prefix_append _ _) before
    have fits' := roomy _ d List.prefix_rfl (before.snoc step)
    exact step.inBounds (fun _ => ih roomy.of_append) fits fits' has

/-! ## Closed descriptors -/

/-- A descriptor is closed exactly if it has been. -/
theorem Steps.closed_iff (history : Steps {} events b) (has : b.Has r) :
    (b.objectOf r).closed = true ↔
      Event.performed r (.close : LargeObject.Op) (.ok ()) ∈ events := by
  induction history with
  | nil => exact absurd has (Nat.not_lt_zero _)
  | @snoc earlier b c e before step ih =>
    rw [List.mem_append, List.mem_singleton]
    by_cases closes : Event.performed r (.close : LargeObject.Op) (.ok ()) = e
    · subst closes
      obtain ⟨known, performed⟩ := step.performed_eq
      have object := objectOf_of_perform known performed
      simp [object, LargeObject.next]
    · by_cases known : b.Has r
      · rw [← ih known]
        rcases step.objectOf_cases known with same | ⟨o, x, rfl, performed⟩
        · simp [same, closes]
        · have other : o ≠ .close := by
            rintro rfl
            exact closes rfl
          simp [objectOf_of_perform known performed, LargeObject.closed_next, other, closes]
      · -- it has just come to be
        have isOpen := (step.originates known has).starts.2
        have unknown : Event.performed r (.close : LargeObject.Op) (.ok ()) ∉ earlier :=
          fun mem => known (before.has_of_mem mem)
        simp [isOpen, unknown, closes]

/-! ## Failures -/

/-- A failed operation has harmed nothing: all objects are as they were, no failure is scripted
that was not before, and operations are answered as was due. -/
structure Unharmed (b c : Bench) : Prop where
  objects : b.SameObjects c
  unscripted : ∀ (q : Ref .largeObject) (o : LargeObject.Op), b.Unscripted q o → c.Unscripted q o
  usable : ∀ (q : Ref .largeObject) (o : LargeObject.Op),
    c.Unscripted q o → (c.perform q o).1 = b.due q o

theorem unharmed_of_perform_error {a : Algebra} {r : Ref a} {o : Op a} {stop : Stop}
    (failed : b.perform r o = (.error stop, c)) : b.Unharmed c := by
  have same : b.SameObjects c := (same_of_perform_error failed).sameObjects
  refine ⟨same, ?_, ?_⟩
  · intro q o' free
    cases fails_of_perform failed with
    | away | stopped => exact free
    | faulted =>
      rw [Unscripted, fault?_forgotten]
      split
      · rfl
      · exact free
  · intro q o' free
    rw [perform_fst_eq_due free, same.due_eq]

/-- A seek is the only operation that can break off the caller, and it does if its target is no
integer of 64 bits. -/
theorem perform_eq_overflow_iff :
    (b.perform r o).1 = .error .overflow ↔
      (b.objectOf r).closed = false ∧ b.Unscripted r o ∧
        ∃ offset whence, o = .seek offset whence ∧
          Width.int64.holds
            (LargeObject.base (b.bytesOf r) (b.positionOf r) whence + offset) = false := by
  cases closed : (b.objectOf r).closed with
  | true => simp [perform_of_closed closed]
  | false =>
    cases fault : (b.probes.get (b.probeOf r)).fault? (Op.key (a := .largeObject) o) with
    | some failure =>
      have scripted : ¬ b.Unscripted r o := by
        simp [Unscripted, fault]
      simp [perform_of_fault (turnsAway_of_open closed) fault, scripted]
    | none =>
      have free : b.Unscripted r o := fault
      rw [perform_fst_eq_due free, due, closed]
      simp only [free, true_and]
      exact LargeObject.answer_eq_overflow_iff

/-! ## All descriptors -/

/-- What holds of a descriptor after a history. -/
structure Guarded (b : Bench) (r : Ref .largeObject) (events : List Event) : Prop where
  position : 0 ≤ b.positionOf r
  /-- Casts, sums and slices make no difference, as long as the bytes still fit. -/
  computes : ∀ o, (LargeObject.rewrite (b.objectOf r) (b.bytesOf r) o).Short →
    LargeObject.compute (b.objectOf r) (b.bytesOf r) b.largeObjects.size o =
      LargeObject.outcome (b.objectOf r) (b.bytesOf r) b.largeObjects.size o
  /-- Another descriptor is neither moved nor closed. -/
  undisturbed : ∀ q, b.Has q → q ≠ r → ∀ o : LargeObject.Op,
    (b.perform r o).2.objectOf q = b.objectOf q
  overflows : ∀ o : LargeObject.Op, (b.perform r o).1 = .error .overflow ↔
    (b.objectOf r).closed = false ∧ b.Unscripted r o ∧
      ∃ offset whence, o = .seek offset whence ∧
        Width.int64.holds
          (LargeObject.base (b.bytesOf r) (b.positionOf r) whence + offset) = false
  unharmed : ∀ (o : LargeObject.Op) stop, (b.perform r o).1 = .error stop →
    b.Unharmed (b.perform r o).2
  closed_iff : (b.objectOf r).closed = true ↔
    Event.performed r (.close : LargeObject.Op) (.ok ()) ∈ events
  /-- Nothing is recorded, and no scripted failure is used up. -/
  closed : (b.objectOf r).closed = true → ∀ o : LargeObject.Op,
    b.perform r o = (.error (.rejected (.closed (b.objectOf r).oid)), b)
  works : (b.objectOf r).closed = false → ∀ o : LargeObject.Op, b.Unscripted r o →
    (b.perform r o).1 =
      LargeObject.answer (b.objectOf r) (b.bytesOf r) b.largeObjects.size o

/-- Whatever is done, in whatever order, with however many descriptors: as long as the bytes fit,
none of them leaves its bounds or disturbs another one, only a seek can break off the caller, a
failure does no harm, and a descriptor works until it is closed and never again. -/
theorem descriptors_guarded (history : Steps {} events b) (roomy : Roomy events) (has : b.Has r) :
    b.Guarded r events where
  position := positioned_of_reachable (history.reachable .empty) r
  computes := by
    intro o room
    have fits : b.Fits := roomy events b List.prefix_rfl history
    exact LargeObject.compute_eq (history.inBounds roomy has) (fits r has) room
  undisturbed := by
    intro q known other o
    refine (b.kept_perform r o).largeObjects.get_eq known ?_
    intro own
    exact other (eq_of_owns own).symm
  overflows := fun _ => perform_eq_overflow_iff
  unharmed := fun _ _ failed => unharmed_of_perform_error (Prod.ext failed rfl)
  closed_iff := history.closed_iff has
  closed := fun closed _ => perform_of_closed closed
  works := by
    intro isOpen o free
    rw [perform_fst_eq_due free, due, isOpen]
    rfl

/-- A descriptor that has been closed, and a copy of it that has not: it is left as it is by a seek
that breaks off the caller. -/
theorem guarded_closed_and_copy :
    (used [.copy, .close]).perform (⟨0⟩ : Ref .largeObject) (.tell : LargeObject.Op) =
        (.error (.rejected (.closed 1)), used [.copy, .close]) ∧
      ((used [.copy, .close]).perform (⟨1⟩ : Ref .largeObject)
        (.seek 0x8000000000000000 .start : LargeObject.Op)).1 = .error .overflow ∧
      (used [.copy, .close]).Unharmed ((used [.copy, .close]).perform (⟨1⟩ : Ref .largeObject)
        (.seek 0x8000000000000000 .start : LargeObject.Op)).2 := by
  let r : Ref .largeObject := ⟨0⟩
  let q : Ref .largeObject := ⟨1⟩
  have placed : Steps {} [.placed "main" (.largeObject 1) ⟨.largeObject, r⟩] (used []) :=
    .one (.placed "main" (.largeObject 1))
  have copies : (used []).perform r (.copy : LargeObject.Op) = (.ok q, used [.copy]) :=
    Prod.ext rfl rfl
  have closes : (used [.copy]).perform r (.close : LargeObject.Op) =
      (.ok (), used [.copy, .close]) := Prod.ext rfl rfl
  have has : (used []).Has r := Nat.lt_succ_self 0
  have copied := placed.snoc (.of_perform has copies)
  have closed := copied.snoc (.of_perform ((Step.of_perform has copies).has has) closes)
  have roomy := ((roomy_nil.snoc placed (by decide +kernel)).snoc copied
    (by decide +kernel)).snoc closed (by decide +kernel)
  have guarded := descriptors_guarded closed roomy (r := r) (Nat.zero_lt_succ 1)
  have guarded' := descriptors_guarded closed roomy (r := q) (Nat.lt_succ_self 1)
  have breaks := (guarded'.overflows (.seek 0x8000000000000000 .start)).mpr
    ⟨rfl, rfl, _, _, rfl, by decide⟩
  exact ⟨guarded.closed rfl .tell, breaks, guarded'.unharmed _ _ breaks⟩

end Bench
end Simulation
end Cancelable
