/-!
# Journals

A journal is the list of operations that simulated resources have performed, in order.
-/

namespace Cancelable
namespace Simulation

/-- An operation that was performed. -/
structure Entry where
  op : String
  detail : String
  deriving DecidableEq, Repr

/-- The operations performed so far. -/
structure Journal where
  /-- The entries, latest first. -/
  latest : List Entry := []
  deriving DecidableEq, Repr

namespace Journal

instance : Inhabited Journal := ⟨{}⟩

def record (j : Journal) (op detail : String) : Journal :=
  ⟨⟨op, detail⟩ :: j.latest⟩

def entries (j : Journal) : List Entry :=
  j.latest.reverse

def ops (j : Journal) : List String :=
  j.entries.map Entry.op

def entriesOf (j : Journal) (op : String) : List Entry :=
  j.entries.filter fun e => e.op = op

def details (j : Journal) (op : String) : List String :=
  (j.entriesOf op).map Entry.detail

def count (j : Journal) (op : String) : Nat :=
  (j.entriesOf op).length

def clear (_ : Journal) : Journal :=
  {}

@[simp] theorem entries_record (j : Journal) (op detail : String) :
    (j.record op detail).entries = j.entries ++ [⟨op, detail⟩] := by
  simp [entries, record]

end Journal
end Simulation
end Cancelable
