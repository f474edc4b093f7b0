import Cancelable.Program

/-!
# Reading a stream to its end

The one program of the library that repeats itself: it reads rows until the stream has none left.
How often that is only the stream knows, so it is a procedure that calls itself.
-/

namespace Cancelable

/-- The procedures of `P`, and the one that reads the rows remaining in a stream. -/
inductive Routine (P : Procedures) : Procedures where
  | remainingRows : Routine P .copyOut (Array Bytes)
  | custom {a : Algebra} {α : Type} (procedure : P a α) : Routine P a α

namespace CopyOut

variable {B : Backend} {P : Procedures}

/-- What follows the read of a row: if there was one, the rows after it are read.  The rows are
collected back to front, so that each is put at the end of those collected before. -/
def afterRow : Option Bytes → Program B (Routine P) .copyOut (Array Bytes)
  | some row => (Program.call Routine.remainingRows).mapPure (·.push row)
  | none => .pure #[]

def remainingRows : Program B (Routine P) .copyOut (Array Bytes) :=
  .bind (.op (a := .copyOut) Op.readRow) afterRow

/-- Read the rows, and reverse them once at the end. -/
def readAll : Program B (Routine P) .copyOut (List Bytes) :=
  (Program.call Routine.remainingRows).mapPure fun rows => rows.reverse.toList

end CopyOut

/-- The bodies of the routines, given those of the procedures of `P`. -/
def Routine.body {B : Backend} {P : Procedures}
    (bodies : {a : Algebra} → {α : Type} → P a α → Program B (Routine P) a α) :
    Bodies B (Routine P)
  | _, _, .remainingRows => CopyOut.remainingRows
  | _, _, .custom procedure => bodies procedure

end Cancelable
