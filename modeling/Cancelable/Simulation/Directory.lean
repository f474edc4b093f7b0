import Cancelable.Simulation.Work

/-!
# Simulated directories

A directory numbers the large objects it creates and never uses a number twice.  Unlinking an
object takes it out of the directory only: whoever has it open keeps its bytes.
-/

namespace Cancelable
namespace Simulation
namespace Directory

def holds (d : Directory) (oid : Int) : Bool :=
  d.objects.contains oid

variable {m : Type → Type} [Monad m] [MonadStateOf Bench m] [MonadLiftT (Except Stop) m]

def update (r : Ref .directory) (f : Directory → Directory) : m Unit :=
  modify fun b =>
    { b with directories := b.directories.set r.index (f (b.directories.get r.index)) }

def act (r : Ref .directory) : (o : Directory.Op) → m (Directory.Op.Answer Ref o)
  | .create _ => do
    let contents ← modifyGet Bench.newContents
    let oid := ((← get).directories.get r.index).nextOid
    update r fun d =>
      { d with nextOid := d.nextOid + 1, objects := d.objects.insert oid contents }
    return oid
  | .openObject oid _ => do
    let d := (← get).directories.get r.index
    match d.objects[oid]? with
    | some contents => modifyGet fun b => b.newLargeObject d.probe oid contents
    | none => Work.reject (.noObject oid)
  | .unlink oid => do
    Work.require (((← get).directories.get r.index).holds oid) (.noObject oid)
    update r fun d => { d with objects := d.objects.erase oid }

end Directory
end Simulation
end Cancelable
