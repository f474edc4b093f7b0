import Cancelable.Proofs.Position

/-!
# What an operation on a descriptor comes to

An open large object is a descriptor: it has a position of its own, a mark that it has been closed,
and bytes that it may share.  An operation on it is answered from these alone, and it changes
nothing else.  Here the answer and the change are given as functions of them, and what performing
an operation comes to is put together from the two.

Main statements: the work of an operation is its answer and its change (`LargeObject.run_act`), and
performing it comes to a rejection by a closed descriptor, or to a scripted failure, or to what its
answer says (`Bench.perform_of_closed`, `Bench.perform_of_fault`, `Bench.perform_of_answer_ok`,
`Bench.perform_of_answer_error`).
-/

namespace Cancelable

/-- There are fewer than 2⁶³ of them, so that an integer of 64 bits holds their number. -/
def Bytes.Short (bytes : Bytes) : Prop :=
  bytes.size < 0x8000000000000000

instance (bytes : Bytes) : Decidable bytes.Short :=
  inferInstanceAs (Decidable (_ < _))

namespace Simulation

/-! ## Answers and changes -/

namespace LargeObject

/-- What an operation on an open descriptor is answered, where `number` is the next to be given
out. -/
def answer (object : LargeObject) (bytes : Bytes) (number : Nat) :
    (o : LargeObject.Op) → Except Stop (LargeObject.Op.Answer Ref o)
  | .oid => .ok object.oid
  | .read len =>
    .ok (bytes.extract (readStart bytes object.position) (readStop bytes object.position len))
  | .write _ => .ok ()
  | .seek offset whence =>
    let target := base bytes object.position whence + offset
    if Width.int64.holds target then
      if 0 ≤ target then .ok () else .error (.rejected (.negativePosition target))
    else .error .overflow
  | .tell => .ok object.position
  | .size => .ok bytes.size
  | .truncate len => if 0 ≤ len then .ok () else .error (.rejected (.invalidLength len))
  | .copy => .ok ⟨number⟩
  | .close => .ok ()

/-- A descriptor after an operation on it that succeeds. -/
def next (object : LargeObject) (bytes : Bytes) : LargeObject.Op → LargeObject
  | .read len => { object with position := readStop bytes object.position len }
  | .write patch => { object with position := (object.position.toNat + patch.size : Nat) }
  | .seek offset whence =>
    { object with position := base bytes object.position whence + offset }
  | .close => { object with closed := true }
  | .oid | .tell | .size | .truncate _ | .copy => object

/-- The bytes of a descriptor after an operation on it that succeeds. -/
def rewrite (object : LargeObject) (bytes : Bytes) : LargeObject.Op → Bytes
  | .write patch => bytes.overwrite object.position.toNat patch
  | .truncate len => bytes.resize len.toNat
  | .oid | .read _ | .seek .. | .tell | .size | .copy | .close => bytes

section Next

variable (object : LargeObject) (bytes : Bytes) (o : LargeObject.Op)

@[simp] theorem probe_next : (next object bytes o).probe = object.probe := by
  cases o <;> rfl

@[simp] theorem contents_next : (next object bytes o).contents = object.contents := by
  cases o <;> rfl

/-- Only closing closes. -/
theorem closed_next : (next object bytes o).closed = true ↔ object.closed = true ∨ o = .close := by
  cases o <;> simp [next]

end Next
end LargeObject

/-! ## The bench afterwards -/

namespace Bench

/-- What is known of a descriptor: its position, whether it is closed, and where its bytes are. -/
def objectOf (b : Bench) (r : Ref .largeObject) : LargeObject :=
  b.largeObjects.get r.index

def setObject (b : Bench) (r : Ref .largeObject) (object : LargeObject) : Bench :=
  { b with largeObjects := b.largeObjects.set r.index object }

def setBytes (b : Bench) (r : Ref .largeObject) (bytes : Bytes) : Bench :=
  { b with contents := b.contents.set (b.objectOf r).contents bytes }

/-- The bench after an operation on a descriptor that succeeds. -/
def afterwards (b : Bench) (r : Ref .largeObject) (o : LargeObject.Op) : Bench :=
  let object := LargeObject.next (b.objectOf r) (b.bytesOf r) o
  let bytes := LargeObject.rewrite (b.objectOf r) (b.bytesOf r) o
  match o with
  | .oid | .tell | .size => b
  | .read _ | .seek .. | .close => b.setObject r object
  | .write _ => (b.setBytes r bytes).setObject r object
  | .truncate _ => b.setBytes r bytes
  | .copy => (b.newLargeObject object.probe object.oid object.contents).2

end Bench

/-- A computation that does not see the bench and yields a value. -/
theorem Work.run_ok_bind {α β : Type} (x : α) (k : α → Work β) (b : Bench) :
    ((liftM (Except.ok x : Except Stop α) : Work α) >>= k).run b = (k x).run b := rfl

namespace LargeObject

variable (b : Bench) (r : Ref .largeObject)

/-- The work of an operation is its answer and, if that is a value, its change. -/
theorem run_act (o : LargeObject.Op) :
    (act r o : Work (LargeObject.Op.Answer Ref o)).run b =
      (answer (b.objectOf r) (b.bytesOf r) b.largeObjects.size o).map
        fun x => (x, b.afterwards r o) := by
  cases o with
  | oid | read | write | tell | size | copy | close => rfl
  | truncate len =>
    by_cases inside : 0 ≤ len
    · simp only [act, answer, Work.require, inside, decide_true, if_true]
      rfl
    · simp only [act, answer, Work.require, inside, decide_false, if_false]
      rfl
  | seek offset whence =>
    -- the target is added up first, then it is tested, and at last the descriptor is moved
    have begins : (act r (.seek offset whence) : Work Unit).run b =
        (do
          let target ← liftM
            (Work.sum (base (b.bytesOf r) (b.objectOf r).position whence) offset)
          Work.require (0 ≤ target) (.negativePosition target)
          update r fun object => { object with position := target } : Work Unit).run b := rfl
    rw [begins]
    simp only [Work.sum, answer]
    split
    · rw [Work.run_ok_bind]
      split
      · next inside =>
        simp only [Work.require, inside, decide_true, if_true]
        rfl
      · next before =>
        simp only [Work.require, before, decide_false]
        rfl
    · rfl

end LargeObject

/-! ## Performing -/

namespace Bench

variable {b b' : Bench} {r : Ref .largeObject} {o : LargeObject.Op}

/-- What an operation on a descriptor is answered if no failure is scripted for it. -/
def due (b : Bench) (r : Ref .largeObject) (o : LargeObject.Op) :
    Except Stop (LargeObject.Op.Answer Ref o) :=
  if (b.objectOf r).closed then .error (.rejected (.closed (b.objectOf r).oid))
  else LargeObject.answer (b.objectOf r) (b.bytesOf r) b.largeObjects.size o

theorem turnsAway_of_closed (closed : (b.objectOf r).closed = true) :
    b.turnsAway r o = some (.closed (b.objectOf r).oid) := by
  simp only [objectOf] at closed
  simp [turnsAway, closed, objectOf]

theorem turnsAway_of_open (isOpen : (b.objectOf r).closed = false) : b.turnsAway r o = none := by
  simp only [objectOf] at isOpen
  simp [turnsAway, isOpen]

/-- Nothing can be done with a closed descriptor, and trying leaves no trace. -/
theorem perform_of_closed (closed : (b.objectOf r).closed = true) :
    b.perform r o = (.error (.rejected (.closed (b.objectOf r).oid)), b) :=
  perform_of_turnedAway (turnsAway_of_closed closed)

/-- Recording an operation does not touch what it is answered from. -/
theorem run_noted (b : Bench) (r : Ref .largeObject) (o : LargeObject.Op) :
    (work r o).run (b.noted r o) =
      (LargeObject.answer (b.objectOf r) (b.bytesOf r) b.largeObjects.size o).map
        fun x => (x, (b.noted r o).afterwards r o) :=
  LargeObject.run_act (b.noted r o) r o

theorem perform_of_answer_ok {x : LargeObject.Op.Answer Ref o}
    (isOpen : (b.objectOf r).closed = false) (unscripted : b.Unscripted r o)
    (answered : LargeObject.answer (b.objectOf r) (b.bytesOf r) b.largeObjects.size o = .ok x) :
    b.perform r o = (.ok x, (b.noted r o).afterwards r o) := by
  apply perform_of_run_ok (turnsAway_of_open isOpen) unscripted
  rw [run_noted, answered]
  rfl

theorem perform_of_answer_error {stop : Stop}
    (isOpen : (b.objectOf r).closed = false) (unscripted : b.Unscripted r o)
    (answered : LargeObject.answer (b.objectOf r) (b.bytesOf r) b.largeObjects.size o =
      .error stop) :
    b.perform r o = (.error stop, b.noted r o) := by
  apply perform_of_run_error (turnsAway_of_open isOpen) unscripted
  rw [run_noted, answered]
  rfl

/-- An operation for which no failure is scripted is answered as is due. -/
theorem perform_fst_eq_due (unscripted : b.Unscripted r o) : (b.perform r o).1 = b.due r o := by
  rw [due]
  cases isOpen : (b.objectOf r).closed with
  | true => simp [perform_of_closed isOpen]
  | false =>
    simpa using perform_fst_of_run (turnsAway_of_open isOpen) unscripted (run_noted b r o)

/-- An operation that succeeds was due to, and it changes what it is to change. -/
theorem of_perform_eq_ok {x : LargeObject.Op.Answer Ref o}
    (performed : b.perform r o = (.ok x, b')) :
    (b.objectOf r).closed = false ∧ b.Unscripted r o ∧
      LargeObject.answer (b.objectOf r) (b.bytesOf r) b.largeObjects.size o = .ok x ∧
        b' = (b.noted r o).afterwards r o := by
  obtain ⟨inside, unscripted, -⟩ := perform_eq_ok_iff.mp performed
  have isOpen : (b.objectOf r).closed = false := by
    cases closed : (b.objectOf r).closed with
    | false => rfl
    | true =>
      rw [turnsAway_of_closed closed] at inside
      cases inside
  obtain ⟨answered, rfl⟩ := of_perform_of_run performed (run_noted b r o)
  exact ⟨isOpen, unscripted, answered, rfl⟩

end Bench
end Simulation
end Cancelable
