import Std.Data.ExtTreeMap

/-!
# Cells

A store of things that are referred to by number and can be replaced.  A number that has not been
given out holds the default thing, so reading and replacing need no side condition.
-/

namespace Cancelable
namespace Simulation

/-- Things referred to by number. -/
structure Cells (α : Type) where
  stored : Std.ExtTreeMap Nat α := ∅
  /-- The least number not given out. -/
  size : Nat := 0

namespace Cells

variable {α : Type} [Inhabited α]

instance : Inhabited (Cells α) := ⟨{}⟩

/-- The thing of a number. -/
def get (c : Cells α) (i : Nat) : α :=
  c.stored.getD i default

/-- Replace the thing of a number. -/
def set (c : Cells α) (i : Nat) (x : α) : Cells α :=
  { c with stored := c.stored.insert i x }

/-- Store a thing under a number not given out before. -/
def add (c : Cells α) (x : α) : Nat × Cells α :=
  (c.size, { stored := c.stored.insert c.size x, size := c.size + 1 })

theorem get_set (c : Cells α) (i j : Nat) (x : α) :
    (c.set i x).get j = if i = j then x else c.get j := by
  simp [get, set, Std.ExtTreeMap.getD_insert]

@[simp] theorem get_set_self (c : Cells α) (i : Nat) (x : α) : (c.set i x).get i = x := by
  simp [get_set]

omit [Inhabited α] in
@[simp] theorem size_set (c : Cells α) (i : Nat) (x : α) : (c.set i x).size = c.size := rfl

theorem get_add (c : Cells α) (j : Nat) (x : α) :
    (c.add x).2.get j = if c.size = j then x else c.get j := by
  simp [get, add, Std.ExtTreeMap.getD_insert]

end Cells
end Simulation
end Cancelable
