import Cancelable.Simulation.Work

/-!
# Simulated large objects

An open large object has a position of its own in bytes that it may share with others.  A read
stops at the end of the bytes and leaves the position there; a write past the end fills the gap
with zeros.
-/

namespace Cancelable
namespace Simulation
namespace LargeObject

/-! ## Positions -/

/-- Where a read at `position` starts: the end of the bytes if the position lies beyond it. -/
def readStart (bytes : Bytes) (position : Int) : Nat :=
  min position.toNat bytes.size

def readStop (bytes : Bytes) (position : Int) (len : Nat) : Nat :=
  min (readStart bytes position + len) bytes.size

def base (bytes : Bytes) (position : Int) : LargeObject.Whence → Int
  | .start => 0
  | .current => position
  | .finish => bytes.size

/-! ## Operations -/

variable {m : Type → Type} [Monad m] [MonadStateOf Bench m] [MonadLiftT (Except Stop) m]

def update (r : Ref .largeObject) (f : LargeObject → LargeObject) : m Unit :=
  modify fun b =>
    { b with largeObjects := b.largeObjects.set r.index (f (b.largeObjects.get r.index)) }

def replace (contents : Nat) (bytes : Bytes) : m Unit :=
  modify fun b => { b with contents := b.contents.set contents bytes }

def act (r : Ref .largeObject) : (o : LargeObject.Op) → m (LargeObject.Op.Answer Ref o)
  | .oid => do
    return ((← get).largeObjects.get r.index).oid
  | .read len => do
    let b ← get
    let object := b.largeObjects.get r.index
    let bytes := b.contents.get object.contents
    let start := readStart bytes object.position
    let stop := readStop bytes object.position len
    update r fun object => { object with position := stop }
    return bytes.extract start stop
  | .write patch => do
    let b ← get
    let object := b.largeObjects.get r.index
    let start := object.position.toNat
    replace object.contents ((b.contents.get object.contents).overwrite start patch)
    update r fun object => { object with position := (start + patch.size : Nat) }
  | .seek offset whence => do
    let b ← get
    let object := b.largeObjects.get r.index
    let bytes := b.contents.get object.contents
    let target ← Work.sum (base bytes object.position whence) offset
    Work.require (0 ≤ target) (.negativePosition target)
    update r fun object => { object with position := target }
  | .tell => do
    return ((← get).largeObjects.get r.index).position
  | .size => do
    let b ← get
    return (b.contents.get (b.largeObjects.get r.index).contents).size
  | .truncate len => do
    let b ← get
    let object := b.largeObjects.get r.index
    Work.require (0 ≤ len) (.invalidLength len)
    replace object.contents ((b.contents.get object.contents).resize len.toNat)
  | .copy => do
    let object := (← get).largeObjects.get r.index
    modifyGet fun b => b.newLargeObject object.probe object.oid object.contents
  | .close =>
    update r fun object => { object with closed := true }

end LargeObject
end Simulation
end Cancelable
