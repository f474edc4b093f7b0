/-!
# Bounded integers

Integers of the library are unbounded; a resource accepts and yields only those of a fixed range.
-/

namespace Cancelable

/-- A range of integers. -/
structure Width where
  low : Int
  high : Int

namespace Width

def int32 : Width := ⟨-0x80000000, 0x7fffffff⟩

def int64 : Width := ⟨-0x8000000000000000, 0x7fffffffffffffff⟩

/-- Lengths: unsigned integers of 64 bits. -/
def length : Width := ⟨0, 0xffffffffffffffff⟩

def holds (w : Width) (n : Int) : Bool :=
  decide (w.low ≤ n) && decide (n ≤ w.high)

/-- The integer of the range that differs from `n` by a multiple of its size. -/
def wrap (w : Width) (n : Int) : Int :=
  (n - w.low) % (w.high - w.low + 1) + w.low

theorem holds_iff {w : Width} {n : Int} : w.holds n = true ↔ w.low ≤ n ∧ n ≤ w.high := by
  simp [holds]

end Width
end Cancelable
