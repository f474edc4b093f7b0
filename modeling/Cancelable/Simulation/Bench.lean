import Cancelable.Operation
import Cancelable.Simulation.Cells
import Cancelable.Simulation.Journal
import Cancelable.Simulation.Probe

/-!
# The bench

The bench holds all simulated resources.  Resources refer to one another by number: open large
objects share their bytes, everything opened through one resource may share its probe, and a
connection owns the resources it gives access to.
-/

namespace Cancelable
namespace Simulation

/-! ## References -/

/-- A reference to a simulated resource. -/
structure Ref (a : Algebra) where
  index : Nat
  deriving DecidableEq, Repr

/-! ## Resources -/

/-- An open large object. -/
structure LargeObject where
  probe : Nat := 0
  oid : Int := 0
  contents : Nat := 0
  position : Int := 0
  closed : Bool := false
  deriving DecidableEq, Repr, Inhabited

/-- A directory of large objects. -/
structure Directory where
  probe : Nat := 0
  nextOid : Int := 16384
  /-- The identifiers of the present objects, and where the bytes of each are. -/
  objects : Std.ExtTreeMap Int Nat := ∅
  deriving DecidableEq, Inhabited

/-- A stream of rows into a table. -/
structure CopyIn where
  probe : Nat := 0
  fields : Int := 0
  /-- The rows written so far, latest first. -/
  latest : List Bytes := []
  active : Bool := true
  deriving DecidableEq, Repr, Inhabited

def CopyIn.rows (s : CopyIn) : List Bytes :=
  s.latest.reverse

/-- A stream of rows out of a table. -/
structure CopyOut where
  probe : Nat := 0
  fields : Int := 0
  /-- The rows that have not been read. -/
  pending : List Bytes := []
  handled : Int := 0
  active : Bool := true
  deriving DecidableEq, Repr, Inhabited

/-- What opens row streams. -/
structure CopyManager where
  probe : Nat := 0
  table : List Bytes := []
  deriving DecidableEq, Repr, Inhabited

/-- A channel for direct function calls. -/
structure Fastpath where
  probe : Nat := 0
  functions : Std.ExtTreeMap String Int := ∅
  deriving DecidableEq, Inhabited

/-- A connection. -/
structure Connection where
  probe : Nat := 0
  pid : Int := 0
  copies : Ref .copyManager := ⟨0⟩
  fastpath : Ref .fastpath := ⟨0⟩
  directory : Ref .directory := ⟨0⟩
  notifications : List Connection.Notification := []
  /-- How often a statement is run before it is prepared on the server. -/
  threshold : Int := 5
  deriving DecidableEq, Repr, Inhabited

/-! ## The bench -/

/-- All simulated resources. -/
structure Bench where
  journals : Std.ExtTreeMap String Journal := ∅
  probes : Cells Probe := {}
  contents : Cells Bytes := {}
  largeObjects : Cells LargeObject := {}
  directories : Cells Directory := {}
  copyIns : Cells CopyIn := {}
  copyOuts : Cells CopyOut := {}
  copyManagers : Cells CopyManager := {}
  fastpaths : Cells Fastpath := {}
  connections : Cells Connection := {}

namespace Bench

instance : Inhabited Bench := ⟨{}⟩

/-- The journal of a name; one nobody has written to is empty. -/
def journal (b : Bench) (name : String) : Journal :=
  b.journals.getD name default

def updateJournal (b : Bench) (name : String) (f : Journal → Journal) : Bench :=
  { b with journals := b.journals.insert name (f (b.journal name)) }

def record (b : Bench) (name op detail : String) : Bench :=
  b.updateJournal name (·.record op detail)

def probeOf (b : Bench) : {a : Algebra} → Ref a → Nat
  | .connection, r => (b.connections.get r.index).probe
  | .copyIn, r => (b.copyIns.get r.index).probe
  | .copyOut, r => (b.copyOuts.get r.index).probe
  | .copyManager, r => (b.copyManagers.get r.index).probe
  | .fastpath, r => (b.fastpaths.get r.index).probe
  | .largeObject, r => (b.largeObjects.get r.index).probe
  | .directory, r => (b.directories.get r.index).probe

def failNext (b : Bench) (probe : Nat) (op : String) (failure : Failure) : Bench :=
  { b with probes := b.probes.set probe ((b.probes.get probe).failNext op failure) }

/-- Begin an operation at a probe: the failure scripted for it is yielded and forgotten, and if
there is none the operation is recorded. -/
def hit (b : Bench) (probe : Nat) (op detail : String) : Option Failure × Bench :=
  let p := b.probes.get probe
  match p.fault? op with
  | some failure => (some failure, { b with probes := b.probes.set probe (p.forget op) })
  | none => (none, b.record p.journal op detail)

/-! ## New resources -/

/-- A probe without scripted failures that writes to the journal of a name. -/
def newProbe (b : Bench) (journal : String) : Nat × Bench :=
  let (i, probes) := b.probes.add { journal }
  (i, { b with probes })

/-- An open large object at the probe, with the bytes found at `contents`. -/
def newLargeObject (b : Bench) (probe : Nat) (oid : Int) (contents : Nat) :
    Ref .largeObject × Bench :=
  let (i, largeObjects) := b.largeObjects.add { probe, oid, contents }
  (⟨i⟩, { b with largeObjects })

def newContents (b : Bench) : Nat × Bench :=
  let (i, contents) := b.contents.add #[]
  (i, { b with contents })

def newDirectory (b : Bench) (journal : String) : Ref .directory × Bench :=
  let (probe, b) := b.newProbe journal
  let (i, directories) := b.directories.add { probe }
  (⟨i⟩, { b with directories })

def newCopyIn (b : Bench) (journal : String) (fields : Int) : Ref .copyIn × Bench :=
  let (probe, b) := b.newProbe journal
  let (i, copyIns) := b.copyIns.add { probe, fields }
  (⟨i⟩, { b with copyIns })

def newCopyOut (b : Bench) (journal : String) (fields : Int) (rows : List Bytes) :
    Ref .copyOut × Bench :=
  let (probe, b) := b.newProbe journal
  let (i, copyOuts) := b.copyOuts.add { probe, fields, pending := rows }
  (⟨i⟩, { b with copyOuts })

def newCopyManager (b : Bench) (journal : String) (table : List Bytes) :
    Ref .copyManager × Bench :=
  let (probe, b) := b.newProbe journal
  let (i, copyManagers) := b.copyManagers.add { probe, table }
  (⟨i⟩, { b with copyManagers })

def newFastpath (b : Bench) (journal : String) : Ref .fastpath × Bench :=
  let (probe, b) := b.newProbe journal
  let (i, fastpaths) := b.fastpaths.add { probe }
  (⟨i⟩, { b with fastpaths })

/-- A connection with an empty table, no functions and no large objects; each of its resources has
a probe of its own. -/
def newConnection (b : Bench) (journal : String) (pid : Int) : Ref .connection × Bench :=
  let (probe, b) := b.newProbe journal
  let (copies, b) := b.newCopyManager journal []
  let (fastpath, b) := b.newFastpath journal
  let (directory, b) := b.newDirectory journal
  let (i, connections) := b.connections.add { probe, pid, copies, fastpath, directory }
  (⟨i⟩, { b with connections })

def notify (b : Bench) (r : Ref .connection) (channel payload : String) : Bench :=
  let c := b.connections.get r.index
  let notifications := c.notifications ++ [⟨channel, payload, c.pid⟩]
  { b with connections := b.connections.set r.index { c with notifications } }

end Bench
end Simulation
end Cancelable
