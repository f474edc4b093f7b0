import Cancelable.Text.Record
import Cancelable.Text.Utf8

/-!
# Byte strings

Byte strings and what resources do with them: cut and pad to a length, overwrite from a position,
take a slice, split into lines.

Main statements: which byte stands where after cutting or padding (`Bytes.getElem?_resize`) and
after overwriting (`Bytes.getElem?_overwrite`).
-/

namespace Cancelable

/-- A string of bytes. -/
abbrev Bytes := Array UInt8

namespace Bytes

def ofText (s : String) : Bytes :=
  s.toUTF8.data

def text (b : Bytes) : String :=
  Text.Utf8.decode b.toList

def structured (b : Bytes) : String :=
  Text.list (b.toList.map fun x => toString x.toNat)

/-- The bytes cut to length `n`, or filled up to it with zeros. -/
def resize (b : Bytes) (n : Nat) : Bytes :=
  if n ≤ b.size then b.extract 0 n else b ++ Array.replicate (n - b.size) 0

/-- The bytes with `patch` in place from position `start` on; a gap before it is filled with
zeros. -/
def overwrite (b : Bytes) (start : Nat) (patch : Bytes) : Bytes :=
  let stop := start + patch.size
  let b := if b.size < stop then b.resize stop else b
  b.extract 0 start ++ patch ++ b.extract stop b.size

/-- How many lines hold at least one byte.  A line ends at a newline or at the end. -/
def countLines (b : Bytes) : Nat :=
  ((b.toList.splitOn 10).filter fun line => !line.isEmpty).length

@[simp] theorem size_resize (b : Bytes) (n : Nat) : (b.resize n).size = n := by
  unfold resize
  split
  · simp; omega
  · simp; omega

/-- The bytes before the new length stay, and new ones are zero. -/
theorem getElem?_resize (b : Bytes) (n i : Nat) :
    (b.resize n)[i]? = if i < n then some (b[i]?.getD 0) else none := by
  unfold resize
  split
  · next h =>
    rw [Array.getElem?_extract]
    grind
  · next h =>
    rw [Array.getElem?_append, Array.getElem?_replicate]
    grind

/-- Overwriting makes the bytes just long enough. -/
theorem size_overwrite (b : Bytes) (start : Nat) (patch : Bytes) :
    (b.overwrite start patch).size = max b.size (start + patch.size) := by
  simp only [overwrite]
  split <;> simp <;> omega

/-- The patch stands from `start` on, and every other byte is what it was, or zero in a gap. -/
theorem getElem?_overwrite (b : Bytes) (start : Nat) (patch : Bytes) (i : Nat) :
    (b.overwrite start patch)[i]? =
      if i < max b.size (start + patch.size) then
        some (if start ≤ i ∧ i < start + patch.size then patch[i - start]?.getD 0
          else b[i]?.getD 0)
      else none := by
  have hr := getElem?_resize b (start + patch.size)
  have hs := size_resize b (start + patch.size)
  simp only [overwrite]
  split
  · next h =>
    simp only [Array.getElem?_append, Array.getElem?_extract, Array.size_append, Array.size_extract]
    grind
  · next h =>
    simp only [Array.getElem?_append, Array.getElem?_extract, Array.size_append, Array.size_extract]
    grind

/-- What was written is read back. -/
theorem extract_overwrite (b : Bytes) (start : Nat) (patch : Bytes) :
    (b.overwrite start patch).extract start (start + patch.size) = patch := by
  apply Array.ext
  · simp only [Array.size_extract, size_overwrite]
    omega
  · intro i _ within
    have there : start + i < max b.size (start + patch.size) := by omega
    have patched : start ≤ start + i ∧ start + i < start + patch.size := by omega
    have byte := getElem?_overwrite b start patch (start + i)
    rw [if_pos there, if_pos patched, Nat.add_sub_cancel_left] at byte
    simpa [Array.getElem?_eq_some_iff, within, size_overwrite, there] using byte

/-- The bytes of rows put one after another, whichever way they are put together. -/
theorem toList_foldl_append (bytes : Bytes) (rows : List Bytes) :
    (rows.foldl (· ++ ·) bytes).toList = bytes.toList ++ rows.flatMap Array.toList := by
  induction rows generalizing bytes with
  | nil => simp
  | cons row rest ih => simp [ih]

end Bytes
end Cancelable
