import Std.Data.ExtTreeMap
import Cancelable.Failure

/-!
# Probes

A probe stands between a simulated resource and its journal.  It can be told to make the next
operation of a name fail; an operation that is not to fail is recorded.
-/

namespace Cancelable
namespace Simulation

/-- The failures scripted for a resource, and the journal its operations go to. -/
structure Probe where
  journal : String
  faults : Std.ExtTreeMap String Failure := ∅

namespace Probe

instance : Inhabited Probe := ⟨{ journal := "" }⟩

/-- Script a failure for the next operation of a name, in place of one scripted before. -/
def failNext (p : Probe) (op : String) (failure : Failure) : Probe :=
  { p with faults := p.faults.insert op failure }

def fault? (p : Probe) (op : String) : Option Failure :=
  p.faults[op]?

def forget (p : Probe) (op : String) : Probe :=
  { p with faults := p.faults.erase op }

theorem fault?_failNext (p : Probe) (op other : String) (f : Failure) :
    (p.failNext op f).fault? other = if op = other then some f else p.fault? other := by
  simp [failNext, fault?, Std.ExtTreeMap.getElem?_insert]

theorem fault?_forget (p : Probe) (op other : String) :
    (p.forget op).fault? other = if op = other then none else p.fault? other := by
  simp [forget, fault?, Std.ExtTreeMap.getElem?_erase]

end Probe
end Simulation
end Cancelable
