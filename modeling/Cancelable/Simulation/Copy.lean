import Cancelable.Simulation.Work

/-!
# Simulated row streams

A stream into a table keeps the rows it is given.  A stream out of a table yields the rows it
still has and becomes inactive when it is asked for one more.  What opens them reads from one table
and never changes it.
-/

namespace Cancelable
namespace Simulation

variable {m : Type → Type} [Monad m] [MonadStateOf Bench m] [MonadLiftT (Except Stop) m]

/-- The format of a field: all fields are text, provided that rows have such a field. -/
def fieldFormat (fields field : Int) : m Int := do
  Work.require (0 ≤ field ∧ field < fields) (.noField field)
  return 0

/-! ## Streams into a table -/

namespace CopyIn

def update (r : Ref .copyIn) (f : CopyIn → CopyIn) : m Unit :=
  modify fun b => { b with copyIns := b.copyIns.set r.index (f (b.copyIns.get r.index)) }

def act (r : Ref .copyIn) : (o : CopyIn.Op) → m (CopyIn.Op.Answer Ref o)
  | .writeRow row => update r fun s => { s with latest := row :: s.latest }
  | .flush => pure ()
  | .finish => do
    update r fun s => { s with active := false }
    return ((← get).copyIns.get r.index).rows.length
  | .cancel => update r fun s => { s with active := false }
  | .fieldCount => do
    return ((← get).copyIns.get r.index).fields
  | .fieldFormat field => do
    fieldFormat ((← get).copyIns.get r.index).fields field
  | .format => pure 0
  | .handledRowCount => do
    return ((← get).copyIns.get r.index).rows.length
  | .isActive => do
    return ((← get).copyIns.get r.index).active

end CopyIn

/-! ## Streams out of a table -/

namespace CopyOut

def update (r : Ref .copyOut) (f : CopyOut → CopyOut) : m Unit :=
  modify fun b => { b with copyOuts := b.copyOuts.set r.index (f (b.copyOuts.get r.index)) }

/-- Read a row: the row, if there is one, and the stream afterwards. -/
def readRow (s : CopyOut) : Option Bytes × CopyOut :=
  if s.active then
    match s.pending with
    | row :: rest => (some row, { s with pending := rest, handled := s.handled + 1 })
    | [] => (none, { s with active := false })
  else (none, s)

def act (r : Ref .copyOut) : (o : CopyOut.Op) → m (CopyOut.Op.Answer Ref o)
  | .readRow => do
    let (row, s) := readRow ((← get).copyOuts.get r.index)
    update r fun _ => s
    return row
  | .cancel => update r fun s => { s with active := false }
  | .fieldCount => do
    return ((← get).copyOuts.get r.index).fields
  | .fieldFormat field => do
    fieldFormat ((← get).copyOuts.get r.index).fields field
  | .format => pure 0
  | .handledRowCount => do
    return ((← get).copyOuts.get r.index).handled
  | .isActive => do
    return ((← get).copyOuts.get r.index).active

end CopyOut

/-! ## What opens streams -/

namespace CopyManager

def journalOf (r : Ref .copyManager) (b : Bench) : String :=
  (b.probes.get (b.copyManagers.get r.index).probe).journal

def act (r : Ref .copyManager) : (o : CopyManager.Op) → m (CopyManager.Op.Answer Ref o)
  | .copyIn _ => modifyGet fun b => b.newCopyIn (journalOf r b) 1
  | .copyOut _ => modifyGet fun b =>
    b.newCopyOut (journalOf r b) 1 (b.copyManagers.get r.index).table
  | .copyInBytes _ data => pure data.countLines
  | .copyOutBytes _ => do
    return ((← get).copyManagers.get r.index).table.foldl (· ++ ·) #[]

end CopyManager
end Simulation
end Cancelable
