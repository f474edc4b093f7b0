import Cancelable.Proofs.Origin

/-!
# Transfers in pieces

Bytes can be written through a descriptor at once or in pieces, and so they can be read.  The pieces
come to the same: each of them starts where the one before has stopped, and filling a gap with
zeros, stopping at the end of the bytes and going back to it need to be done only once.

There has to be a piece, which may be empty.  Writing nothing beyond the end still fills the gap.

Main statements: two operations in a row come to one (`Bench.afterwards_write_write`,
`Bench.afterwards_read_read`), and transfers in pieces come to one at once
(`Bench.transfers_seamless`).
-/

namespace Cancelable

/-- What is written over the end of a patch, and what is written over the bytes at once. -/
theorem Bytes.overwrite_overwrite (b : Bytes) (start : Nat) (x y : Bytes) :
    (b.overwrite start x).overwrite (start + x.size) y = b.overwrite start (x ++ y) := by
  apply Array.ext_getElem?
  intro i
  have size : max (max b.size (start + x.size)) (start + x.size + y.size) =
      max b.size (start + (x ++ y).size) := by
    rw [Array.size_append]
    omega
  rw [getElem?_overwrite, getElem?_overwrite, getElem?_overwrite, size_overwrite, size]
  split
  · next within =>
    congr 1
    rw [Array.size_append, Array.getElem?_append]
    -- before both pieces, in the first one, in the second one, or behind them
    grind
  · rfl

namespace Simulation

/-- Only what was stored last under a number counts. -/
theorem Cells.set_set {α : Type} (c : Cells α) (i : Nat) (x y : α) :
    (c.set i x).set i y = c.set i y := by
  have stored : (c.stored.insert i x).insert i y = c.stored.insert i y := by
    apply Std.ExtTreeMap.ext_getElem?
    intro j
    simp only [Std.ExtTreeMap.getElem?_insert]
    split
    · rfl
    · simp
  simp [set, stored]

namespace Bench

variable {b c : Bench} {r : Ref .largeObject}

/-! ## Two pieces -/

theorem objectOf_setObject (b : Bench) (r : Ref .largeObject) (object : LargeObject) :
    (b.setObject r object).objectOf r = object :=
  Cells.get_set_self _ _ _

/-- Two pieces that are written one after the other. -/
theorem afterwards_write_write (b : Bench) (r : Ref .largeObject) (x y : Bytes) :
    (b.afterwards r (.write (x ++ y))).SameObjects
      ((b.afterwards r (.write x)).afterwards r (.write y)) := by
  let object := b.objectOf r
  let start := object.position.toNat
  let moved : LargeObject := { object with position := (start + x.size : Nat) }
  -- the first piece leaves the descriptor behind it, and the bytes that the second one is laid over
  have between : (b.afterwards r (.write x)).objectOf r = moved := objectOf_setObject _ _ _
  have bytes : (b.afterwards r (.write x)).bytesOf r = (b.bytesOf r).overwrite start x := by
    have there : (b.afterwards r (.write x)).bytesOf r =
        (b.afterwards r (.write x)).contents.get (b.objectOf r).contents := by
      rw [bytesOf, ← objectOf, between]
    exact there.trans (bytes_afterwards b r (.write x))
  have position : moved.position.toNat = start + x.size := Int.toNat_natCast _
  refine ⟨⟨?_, ?_⟩, rfl⟩
  · have joined : LargeObject.rewrite moved ((b.bytesOf r).overwrite start x) (.write y) =
        (b.bytesOf r).overwrite start (x ++ y) := by
      rw [LargeObject.rewrite, position, Bytes.overwrite_overwrite]
    calc
      ((b.afterwards r (.write x)).afterwards r (.write y)).contents
        = ((b.contents.set object.contents ((b.bytesOf r).overwrite start x)).set
            ((b.afterwards r (.write x)).objectOf r).contents
              (LargeObject.rewrite ((b.afterwards r (.write x)).objectOf r)
                ((b.afterwards r (.write x)).bytesOf r) (.write y))) := rfl
      _ = b.contents.set object.contents ((b.bytesOf r).overwrite start (x ++ y)) := by
        rw [between, bytes, joined]
        exact Cells.set_set _ _ _ _
  · have next : LargeObject.next moved ((b.bytesOf r).overwrite start x) (.write y) =
        LargeObject.next object (b.bytesOf r) (.write (x ++ y)) := by
      simp only [LargeObject.next, position, Array.size_append, Nat.add_assoc, moved, start]
    calc
      ((b.afterwards r (.write x)).afterwards r (.write y)).largeObjects
        = (b.largeObjects.set r.index moved).set r.index
            (LargeObject.next ((b.afterwards r (.write x)).objectOf r)
              ((b.afterwards r (.write x)).bytesOf r) (.write y)) := rfl
      _ = b.largeObjects.set r.index (LargeObject.next object (b.bytesOf r) (.write (x ++ y))) := by
        rw [between, bytes, next]
        exact Cells.set_set _ _ _ _

/-- A read stops inside the bytes, so that the next one starts there. -/
theorem readStart_readStop (bytes : Bytes) (position : Int) (len : Nat) :
    LargeObject.readStart bytes (LargeObject.readStop bytes position len) =
      LargeObject.readStop bytes position len :=
  LargeObject.readStart_of_le (Nat.min_le_right _ _)

theorem readStop_readStop (bytes : Bytes) (position : Int) (m n : Nat) :
    LargeObject.readStop bytes (LargeObject.readStop bytes position m) n =
      LargeObject.readStop bytes position (m + n) := by
  rw [LargeObject.readStop, readStart_readStop, LargeObject.readStop, LargeObject.readStop]
  omega

/-- What a read returns. -/
def slice (bytes : Bytes) (position : Int) (len : Nat) : Bytes :=
  bytes.extract (LargeObject.readStart bytes position) (LargeObject.readStop bytes position len)

/-- What is read in two pieces. -/
theorem slice_append_slice (bytes : Bytes) (position : Int) (m n : Nat) :
    slice bytes position m ++ slice bytes (LargeObject.readStop bytes position m) n =
      slice bytes position (m + n) := by
  have first : LargeObject.readStart bytes position ≤ LargeObject.readStop bytes position m := by
    simp only [LargeObject.readStop, LargeObject.readStart]
    omega
  have second : LargeObject.readStop bytes position m ≤
      LargeObject.readStop bytes position (m + n) := by
    simp only [LargeObject.readStop]
    omega
  simp only [slice]
  rw [readStart_readStop, readStop_readStop, Array.extract_append_extract, Nat.min_eq_left first,
    Nat.max_eq_right second]

/-- Two pieces that are read one after the other. -/
theorem afterwards_read_read (b : Bench) (r : Ref .largeObject) (m n : Nat) :
    (b.afterwards r (.read (m + n))).SameObjects
      ((b.afterwards r (.read m)).afterwards r (.read n)) := by
  let object := b.objectOf r
  let moved : LargeObject :=
    { object with position := LargeObject.readStop (b.bytesOf r) object.position m }
  have between : (b.afterwards r (.read m)).objectOf r = moved := objectOf_setObject _ _ _
  have bytes : (b.afterwards r (.read m)).bytesOf r = b.bytesOf r := by
    rw [bytesOf, ← objectOf, between]
    rfl
  have next : LargeObject.next moved (b.bytesOf r) (.read n) =
      LargeObject.next object (b.bytesOf r) (.read (m + n)) := by
    simp only [LargeObject.next, moved, readStop_readStop]
  refine ⟨⟨rfl, ?_⟩, rfl⟩
  calc
    ((b.afterwards r (.read m)).afterwards r (.read n)).largeObjects
      = (b.largeObjects.set r.index moved).set r.index
          (LargeObject.next ((b.afterwards r (.read m)).objectOf r)
            ((b.afterwards r (.read m)).bytesOf r) (.read n)) := rfl
    _ = b.largeObjects.set r.index (LargeObject.next object (b.bytesOf r) (.read (m + n))) := by
      rw [between, bytes, next]
      exact Cells.set_set _ _ _ _

/-! ## Any number of pieces -/

/-- An open descriptor through which bytes can be written and read: no failures are scripted. -/
structure Ready (b : Bench) (r : Ref .largeObject) : Prop where
  has : b.Has r
  isOpen : (b.objectOf r).closed = false
  writing : ∀ x, b.Unscripted r (.write x : LargeObject.Op)
  reading : ∀ n, b.Unscripted r (.read n : LargeObject.Op)

theorem Ready.of_perform {o : LargeObject.Op} {x : LargeObject.Op.Answer Ref o} (ready : b.Ready r)
    (performed : b.perform r o = (.ok x, c)) (other : o ≠ .close) : c.Ready r where
  has := (Step.of_perform ready.has performed).has ready.has
  isOpen := by
    have object := objectOf_of_perform ready.has performed
    have closes := LargeObject.closed_next (b.objectOf r) (b.bytesOf r) o
    simpa [object, ready.isOpen, other] using closes
  writing := fun x => unscripted_of_perform ready.has performed (ready.writing x)
  reading := fun n => unscripted_of_perform ready.has performed (ready.reading n)

/-- Write pieces one after the other, until one cannot be written. -/
def writePieces (r : Ref .largeObject) : List Bytes → Bench → Except Stop Unit × Bench
  | [], b => (.ok (), b)
  | x :: rest, b =>
    match b.perform r (.write x : LargeObject.Op) with
    | (.ok (), b) => writePieces r rest b
    | (.error stop, b) => (.error stop, b)

/-- Read pieces one after the other, until one cannot be read, and join them. -/
def readPieces (r : Ref .largeObject) : List Nat → Bench → Except Stop Bytes × Bench
  | [], b => (.ok #[], b)
  | n :: rest, b =>
    match b.perform r (.read n : LargeObject.Op) with
    | (.ok bytes, b) =>
      let (joined, b) := readPieces r rest b
      (joined.map (bytes ++ ·), b)
    | (.error stop, b) => (.error stop, b)

def joined (pieces : List Bytes) : Bytes :=
  pieces.foldr (· ++ ·) #[]

def total (pieces : List Nat) : Nat :=
  pieces.foldr (· + ·) 0

section Pieces

variable (ready : b.Ready r)

include ready

theorem Ready.write (x : Bytes) :
    ∃ c, b.perform r (.write x : LargeObject.Op) = (.ok (), c) ∧ c.Ready r := by
  have written := perform_of_answer_ok (x := ()) ready.isOpen (ready.writing x) rfl
  exact ⟨_, written, ready.of_perform written nofun⟩

theorem Ready.read (n : Nat) :
    ∃ c, b.perform r (.read n : LargeObject.Op) =
        (.ok (slice (b.bytesOf r) (b.positionOf r) n), c) ∧ c.Ready r := by
  have read := perform_of_answer_ok ready.isOpen (ready.reading n) rfl
  exact ⟨_, read, ready.of_perform read nofun⟩

theorem perform_write_write (x y : Bytes) :
    ∃ c d e, c.Ready r ∧
      b.perform r (.write x : LargeObject.Op) = (.ok (), c) ∧
      c.perform r (.write y : LargeObject.Op) = (.ok (), d) ∧
      b.perform r (.write (x ++ y) : LargeObject.Op) = (.ok (), e) ∧ e.SameObjects d := by
  obtain ⟨c, first, still⟩ := ready.write x
  obtain ⟨d, second, -⟩ := still.write y
  obtain ⟨e, whole, -⟩ := ready.write (x ++ y)
  have after := (sameObjects_of_perform first).afterwards r (.write y)
  have split := after.trans (sameObjects_of_perform second)
  refine ⟨c, d, e, still, first, second, whole, ?_⟩
  exact (sameObjects_of_perform whole).symm.trans ((afterwards_write_write b r x y).trans split)

theorem perform_read_read (m n : Nat) :
    ∃ x y c d e, c.Ready r ∧
      b.perform r (.read m : LargeObject.Op) = (.ok x, c) ∧
      c.perform r (.read n : LargeObject.Op) = (.ok y, d) ∧
      b.perform r (.read (m + n) : LargeObject.Op) = (.ok (x ++ y), e) ∧ e.SameObjects d := by
  obtain ⟨c, first, still⟩ := ready.read m
  obtain ⟨d, second, -⟩ := still.read n
  obtain ⟨e, whole, -⟩ := ready.read (m + n)
  have after := (sameObjects_of_perform first).afterwards r (.read n)
  have split := after.trans (sameObjects_of_perform second)
  refine ⟨_, _, c, d, e, still, first, second, ?_,
    (sameObjects_of_perform whole).symm.trans ((afterwards_read_read b r m n).trans split)⟩
  -- the second piece is read from the same bytes, from where the first one has stopped
  have bytes : c.bytesOf r = b.bytesOf r := bytesOf_of_perform ready.has first
  have position : c.positionOf r = LargeObject.readStop (b.bytesOf r) (b.positionOf r) m :=
    congrArg LargeObject.position (objectOf_of_perform ready.has first)
  rw [whole, bytes, position, slice_append_slice]

theorem perform_writePieces (x : Bytes) (rest : List Bytes) :
    ∃ c d,
      writePieces r (x :: rest) b = (.ok (), c) ∧
      b.perform r (.write (joined (x :: rest)) : LargeObject.Op) = (.ok (), d) ∧
      d.SameObjects c := by
  induction rest generalizing b x with
  | nil =>
    obtain ⟨c, written, -⟩ := ready.write x
    have single : joined [x] = x := Array.append_empty
    refine ⟨c, c, by rw [writePieces, written]; rfl, by rw [single, written], .refl c⟩
  | cons y rest ih =>
    -- the first piece and the others, which come to one
    obtain ⟨c, d, e, still, first, others, whole, same⟩ :=
      perform_write_write ready x (joined (y :: rest))
    obtain ⟨c', d', split, once, same'⟩ := ih still y
    obtain rfl : d = d' := congrArg Prod.snd (others.symm.trans once)
    exact ⟨c', e, by rw [writePieces, first]; exact split, whole, same.trans same'⟩

theorem perform_readPieces (n : Nat) (rest : List Nat) :
    ∃ bytes c d,
      readPieces r (n :: rest) b = (.ok bytes, c) ∧
      b.perform r (.read (total (n :: rest)) : LargeObject.Op) = (.ok bytes, d) ∧
      d.SameObjects c := by
  induction rest generalizing b n with
  | nil =>
    obtain ⟨c, read, -⟩ := ready.read n
    have single : total [n] = n := Nat.add_zero n
    refine ⟨_, c, c, ?_, by rw [single, read], .refl c⟩
    rw [readPieces, read]
    exact congrArg (fun bytes => (Except.ok bytes, c)) Array.append_empty
  | cons m rest ih =>
    obtain ⟨x, y, c, d, e, still, first, others, whole, same⟩ :=
      perform_read_read ready n (total (m :: rest))
    obtain ⟨y', c', d', split, once, same'⟩ := ih still m
    have eq := others.symm.trans once
    obtain rfl : y = y' := Except.ok.inj (congrArg Prod.fst eq)
    obtain rfl : d = d' := congrArg Prod.snd eq
    refine ⟨x ++ y, c', e, ?_, whole, same.trans same'⟩
    rw [readPieces, first]
    simp only [split]
    rfl

end Pieces

/-! ## Transfers -/

/-- Two transfers with the same answer, after which all objects are the same. -/
def Agree {α : Type} (whole split : Except Stop α × Bench) : Prop :=
  split.1 = whole.1 ∧ whole.2.SameObjects split.2

/-- Transfers through a descriptor do not depend on how they are cut into pieces. -/
structure Seamless (b : Bench) (r : Ref .largeObject) : Prop where
  write_append : ∀ x y : Bytes,
    let first := b.perform r (.write x : LargeObject.Op)
    let second := first.2.perform r (.write y : LargeObject.Op)
    Agree (b.perform r (.write (x ++ y) : LargeObject.Op))
      (do first.1; second.1, second.2)
  read_add : ∀ m n : Nat,
    let first := b.perform r (.read m : LargeObject.Op)
    let second := first.2.perform r (.read n : LargeObject.Op)
    Agree (b.perform r (.read (m + n) : LargeObject.Op))
      (do return (← first.1) ++ (← second.1), second.2)
  writes : ∀ x rest,
    Agree (b.perform r (.write (joined (x :: rest)) : LargeObject.Op))
      (writePieces r (x :: rest) b)
  reads : ∀ n rest,
    Agree (b.perform r (.read (total (n :: rest)) : LargeObject.Op)) (readPieces r (n :: rest) b)
  /-- None of them fails, unless the descriptor is closed. -/
  succeeds : (b.objectOf r).closed = false →
    (∀ x, ∃ c, b.perform r (.write x : LargeObject.Op) = (.ok (), c)) ∧
      ∀ n, ∃ bytes c, b.perform r (.read n : LargeObject.Op) = (.ok bytes, c)

/-- Through a closed descriptor nothing is transferred. -/
theorem seamless_of_closed (closed : (b.objectOf r).closed = true) : b.Seamless r where
  write_append := by
    intro x y
    simp only [perform_of_closed closed]
    exact ⟨rfl, .refl b⟩
  read_add := by
    intro m n
    simp only [perform_of_closed closed]
    exact ⟨rfl, .refl b⟩
  writes := by
    intro x rest
    simp only [writePieces, perform_of_closed closed]
    exact ⟨rfl, .refl b⟩
  reads := by
    intro n rest
    simp only [readPieces, perform_of_closed closed]
    exact ⟨rfl, .refl b⟩
  succeeds := by
    intro isOpen
    rw [closed] at isOpen
    cases isOpen

theorem seamless_of_ready (ready : b.Ready r) : b.Seamless r where
  write_append := by
    intro x y
    obtain ⟨c, d, e, -, first, second, whole, same⟩ := perform_write_write ready x y
    simp only [first, second, whole]
    exact ⟨rfl, same⟩
  read_add := by
    intro m n
    obtain ⟨x, y, c, d, e, -, first, second, whole, same⟩ := perform_read_read ready m n
    simp only [first, second, whole]
    exact ⟨rfl, same⟩
  writes := by
    intro x rest
    obtain ⟨c, d, split, whole, same⟩ := perform_writePieces ready x rest
    rw [split, whole]
    exact ⟨rfl, same⟩
  reads := by
    intro n rest
    obtain ⟨bytes, c, d, split, whole, same⟩ := perform_readPieces ready n rest
    rw [split, whole]
    exact ⟨rfl, same⟩
  succeeds := by
    intro _
    refine ⟨fun x => ?_, fun n => ?_⟩
    · obtain ⟨c, written, -⟩ := ready.write x
      exact ⟨c, written⟩
    · obtain ⟨c, read, -⟩ := ready.read n
      exact ⟨_, c, read⟩

/-- As long as no failures are scripted for them, it makes no difference whether bytes are written
or read through a descriptor at once or in pieces. -/
theorem transfers_seamless (has : b.Has r)
    (writing : ∀ x, b.Unscripted r (.write x : LargeObject.Op))
    (reading : ∀ n, b.Unscripted r (.read n : LargeObject.Op)) : b.Seamless r := by
  cases closed : (b.objectOf r).closed with
  | true => exact seamless_of_closed closed
  | false => exact seamless_of_ready ⟨has, closed, writing, reading⟩

/-- Pieces that are written from beyond the end on, the first of which is empty. -/
theorem seamless_beyond_end :
    ((used [.write #[1], .seek 3 .start]).writePieces ⟨0⟩ [#[], #[2], #[3]]).2.bytesOf ⟨0⟩ =
        #[1, 0, 0, 2, 3] ∧
      (used [.write #[1], .seek 3 .start]).Seamless ⟨0⟩ := by
  have has : (used [.write #[1], .seek 3 .start]).Has (⟨0⟩ : Ref .largeObject) :=
    Nat.lt_succ_self 0
  have unscripted : ((used [.write #[1], .seek 3 .start]).probes.get 0).faults = ∅ := rfl
  constructor
  · decide +kernel
  · exact transfers_seamless has (fun _ => congrArg (·["large_object.write"]?) unscripted)
      (fun _ => congrArg (·["large_object.read"]?) unscripted)

end Bench
end Simulation
end Cancelable
