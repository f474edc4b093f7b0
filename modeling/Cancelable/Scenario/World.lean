import Cancelable.Backend
import Cancelable.Scenario.Code
import Cancelable.Simulation.Perform

/-!
# The world of a scenario

The backend of scenarios: the bench of simulated resources, and what a scenario keeps besides, its
counters, the names it has given, and a count of moments from which new failures take their
labels.
-/

namespace Cancelable
namespace Scenario

open Simulation

/-! ## The world -/

/-- What the operations and thunks of a scenario read and change. -/
structure World where
  bench : Bench := {}
  counters : Std.ExtTreeMap String Nat := ∅
  tables : Tables := {}
  /-- How many moments have passed; each is used for one purpose. -/
  instants : Nat := 0
  readings : Nat := 0
  latestReading : Nat := 0
  /-- Whether something was asked for that cannot be done. -/
  refused : Bool := false

namespace World

def mainJournal : String := "main"

def instant (w : World) : Nat × World :=
  (w.instants, { w with instants := w.instants + 1 })

def tick (w : World) (counter : String) : Nat × World :=
  let count := w.counters.getD counter 0 + 1
  (count, { w with counters := w.counters.insert counter count })

def updateBench (w : World) (f : Bench → Bench) : World :=
  { w with bench := f w.bench }

def note (w : World) (op detail : String) : World :=
  w.updateBench (·.record mainJournal op detail)

def read (w : World) : Nat × World :=
  (w.readings, { w with readings := w.readings + 1 })

end World

/-! ## The backend -/

/-- Perform an operation on a simulated resource.  A rejection becomes a new failure with its
message, and an overflow breaks off. -/
def perform {a : Algebra} (r : Ref a) (o : Op a) :
    Host World (Except Failure (Op.Answer Ref o)) :=
  fun _ w =>
    match w.bench.perform r o with
    | (.ok x, bench) => ⟨.ok (.ok x), { w with bench }, []⟩
    | (.error (.fault f), bench) => ⟨.ok (.error f), { w with bench }, []⟩
    | (.error (.rejected why), bench) =>
      let (n, w) := { w with bench }.instant
      ⟨.ok (.error (.message ⟨n, []⟩ why.text)), w, []⟩
    | (.error .overflow, bench) => ⟨.error ⟨Stop.overflowText⟩, { w with bench }, []⟩

def startOf2020 : Nat := 1577836800

/-- The backend of scenarios.  Its clocks go on by one with each reading. -/
abbrev backend : Backend where
  World := World
  Handle := Ref
  invoke r o := perform r o
  monotonic := Host.update World.read
  realtime := Host.update fun w => let (n, w) := w.read; (startOf2020 + 1 + n, w)

/-! ## Host code of scenarios -/

/-- Break off because something was asked for that cannot be done. -/
def refuse {α : Type} : Host World α :=
  fun _ w => ⟨.error ⟨"refused"⟩, { w with refused := true }, []⟩

def orRefuse {α : Type} : Option α → Host World α
  | some x => pure x
  | none => refuse

/-- A moment of its own, and what is known by name at it. -/
structure Moment where
  labels : Labels
  tables : Tables

def moment : Host World Moment :=
  Host.update fun w =>
    let (n, w) := w.instant
    ({ labels := { instant := n }, tables := w.tables }, w)

def evaluate (names : Names) (locals : List (String × Value)) (x : Expr) : Host World Value := do
  let m ← moment
  let (v, _) ← orRefuse (x.eval names locals m.labels)
  return v

def evaluateText (names : Names) (locals : List (String × Value)) (x : Expr) :
    Host World String := do
  match ← evaluate names locals x with
  | .text s => return s
  | _ => refuse

def evaluateFailure (names : Names) (locals : List (String × Value)) (x : Expr) :
    Host World Failure := do
  match ← evaluate names locals x with
  | .failure f => return f
  | _ => refuse

/-! ## Targets -/

def Names.resource? (names : Names) (b : Bench) (target : String) : Option Resource :=
  match names.handles.lookup target with
  | some r => some r
  | none => names.handles.findSome? fun (name, r) =>
    match r with
    | ⟨.connection, r⟩ =>
      let c := b.connections.get r.index
      if target = name ++ ".copies" then some ⟨_, c.copies⟩
      else if target = name ++ ".fastpath" then some ⟨_, c.fastpath⟩
      else if target = name ++ ".large_objects" then some ⟨_, c.directory⟩
      else none
    | _ => none

def Names.probe? (names : Names) (b : Bench) (target : String) : Option Nat :=
  (names.resource? b target).map fun r => b.probeOf r.ref

def Names.connection? (names : Names) (target : String) : Option (Ref .connection) :=
  match names.handles.lookup target with
  | some ⟨.connection, r⟩ => some r
  | _ => none

end Scenario
end Cancelable
