import Cancelable.Proofs.Transfer

/-!
# Rows counted in bulk

Rows go into a table one by one through a stream, or at once as one string of bytes in which each
row ends with a newline.  The end of a stream yields how many rows it was given.  The string is
split at its newlines, and the pieces that hold at least one byte are counted.  The piece after the
last newline holds none, and is no row.  But an empty row leaves such a piece, too: it is counted by
the stream, and not in bulk.  The two counts are the same exactly if no row is empty.

Main statements: how many rows of a string of rows are counted, whatever bytes follow it
(`Bytes.countLines_lines_append`), and which rows a stream counts and the bulk does not
(`Scenario.bulk_counts_iff`).
-/

namespace Cancelable

variable {P : Procedures}

/-! ## Strings of rows -/

namespace Bytes

/-- A row and the newline that ends it. -/
def line (row : Bytes) : Bytes :=
  row.push 10

/-- The rows one after another, each with its newline. -/
def lines (rows : List Bytes) : Bytes :=
  (rows.map line).foldl (· ++ ·) #[]

@[simp] theorem toList_lines_cons (row : Bytes) (rest : List Bytes) :
    (lines (row :: rest)).toList = row.toList ++ 10 :: (lines rest).toList := by
  simp [lines, line, toList_foldl_append]

/-- Rows without newlines are split off as they were, and the bytes after them are split as if they
stood alone. -/
theorem splitOn_lines_append {rows : List Bytes} (plain : ∀ row ∈ rows, 10 ∉ row)
    (data : List UInt8) :
    ((lines rows).toList ++ data).splitOn 10 = rows.map Array.toList ++ data.splitOn 10 := by
  induction rows with
  | nil => rfl
  | cons row rest ih =>
    -- the newline of the row is the first one there is
    obtain ⟨here, later⟩ := List.forall_mem_cons.mp plain
    have first : (10 : UInt8) ∉ row.toList := fun mem => here (Array.mem_toList_iff.mp mem)
    rw [toList_lines_cons, List.append_assoc, List.cons_append,
      List.splitOn_append_cons_self_of_not_mem first, ih later]
    rfl

/-- The rows that are not empty are counted, and the bytes after them as if they stood alone. -/
theorem countLines_lines_append {rows : List Bytes} (plain : ∀ row ∈ rows, 10 ∉ row)
    (data : Bytes) :
    (lines rows ++ data).countLines = rows.countP (!·.isEmpty) + data.countLines := by
  have pieces : (lines rows ++ data).toList.splitOn 10 =
      rows.map Array.toList ++ data.toList.splitOn 10 := by
    rw [Array.toList_append, splitOn_lines_append plain]
  have filled : (rows.map Array.toList).countP (!·.isEmpty) = rows.countP (!·.isEmpty) := by
    simp [List.countP_map, Function.comp_def]
  rw [countLines, countLines, pieces, ← List.countP_eq_length_filter,
    ← List.countP_eq_length_filter, List.countP_append, filled]

theorem countLines_lines {rows : List Bytes} (plain : ∀ row ∈ rows, 10 ∉ row) :
    (lines rows).countLines = rows.countP (!·.isEmpty) :=
  -- nothing is split into one piece, which is empty
  countLines_lines_append plain #[]

end Bytes

/-! ## The bulk and the stream -/

namespace CopyManager

/-- Bring in the rows of a string of bytes at once; the value is their count. -/
def loadAll {B : Backend} (sql : String) (data : Bytes) : Program B P .copyManager Int :=
  .op (a := .copyManager) (Op.copyInBytes sql data)

end CopyManager

namespace Scenario

open Simulation (Bench Ref)

/-- Rows without newlines, on every runtime: a stream that is opened for them counts all, and holds
each with its newline.  At once those are counted that are not empty, so the counts are the same
exactly if no row is empty.  Whatever bytes follow the rows, the counts of both parts add up. -/
theorem bulk_counts_iff (bodies : Bodies backend P) (rt : Runtime) {f : Fiber}
    {m : Ref .copyManager} {table : List Bytes} {sc : Scene backend} (serves : Serves f m table sc)
    (sql : String) {rows : List Bytes} (plain : ∀ row ∈ rows, 10 ∉ row) :
    ∃ sink sc₁ count sc₂,
      (CopyManager.writeIn sql (rows.map Bytes.line)).ComesTo bodies rt f m sc
          (.succeeded (sink, (rows.length : Int))) sc₁ ∧
        (sc₁.world.bench.copyIns.get sink.index).rows = rows.map Bytes.line ∧
        (CopyManager.loadAll sql (Bytes.lines rows)).ComesTo bodies rt f m sc
          (.succeeded (count : Int)) sc₂ ∧
        count = (rows.countP (!·.isEmpty) : Int) ∧
        (count = (rows.length : Int) ↔ ∀ row ∈ rows, row ≠ #[]) ∧
        Serves f m table sc₁ ∧ Serves f m table sc₂ ∧
        ∀ data, ∃ more sc₃ sc₄,
          (CopyManager.loadAll sql data).ComesTo bodies rt f m sc (.succeeded more) sc₃ ∧
            (CopyManager.loadAll sql (Bytes.lines rows ++ data)).ComesTo bodies rt f m sc
              (.succeeded (count + more)) sc₄ := by
  obtain ⟨sink, sc₁, written, kept, again₁⟩ :=
    serves.gives_writeIn bodies [] sql (rows.map Bytes.line)
  obtain ⟨sc₂, loaded, again₂⟩ := serves.gives_copyInBytes bodies [] sql (Bytes.lines rows)
  rw [List.length_map] at written
  rw [Bytes.countLines_lines plain] at loaded
  refine ⟨sink, _, _, _, written.comesTo rt, kept, loaded.comesTo rt, rfl, ?_, again₁.emit _ _,
    again₂.emit _ _, fun data => ?_⟩
  · -- as many are counted as there are rows exactly if each of them is
    rw [Int.natCast_inj, List.countP_eq_length]
    simp
  · obtain ⟨sc₃, alone, -⟩ := serves.gives_copyInBytes bodies [] sql data
    obtain ⟨sc₄, both, -⟩ := serves.gives_copyInBytes bodies [] sql (Bytes.lines rows ++ data)
    rw [Bytes.countLines_lines_append plain, Int.natCast_add] at both
    exact ⟨_, _, _, alone.comesTo rt, both.comesTo rt⟩

/-- Two rows that are not empty are two for the stream and in bulk. -/
theorem bulk_counts_filled_rows :
    let f : Fiber := .ofName "f"
    let m : Ref .copyManager := ⟨0⟩
    let sc : Scene backend := ⟨{}, { bench := (({} : Bench).newCopyManager "main" []).2 }, []⟩
    let bodies : Bodies backend .none := fun procedure => nomatch procedure
    let rows : List Bytes := [#[97], #[98, 32, 98]]
    ∃ sink sc₁ sc₂,
      (CopyManager.writeIn "COPY t FROM STDIN" (rows.map Bytes.line)).ComesTo bodies .stepped f m sc
          (.succeeded (sink, 2)) sc₁ ∧
        (CopyManager.loadAll "COPY t FROM STDIN" (Bytes.lines rows)).ComesTo bodies .stepped f m sc
          (.succeeded 2) sc₂ := by
  intro f m sc bodies rows
  have serves : Serves f m [] sc := ⟨rfl, fun o => by cases o <;> rfl, rfl⟩
  have plain : ∀ row ∈ rows, 10 ∉ row := by simp [rows]
  obtain ⟨sink, sc₁, count, sc₂, streamed, -, loaded, -, same, -⟩ :=
    bulk_counts_iff bodies .stepped serves "COPY t FROM STDIN" plain
  have two : count = 2 := same.mpr (by decide)
  rw [two] at loaded
  exact ⟨sink, sc₁, sc₂, streamed, loaded⟩

/-- One row that is empty is one for the stream, and none in bulk. -/
theorem empty_row_uncounted_in_bulk :
    let f : Fiber := .ofName "f"
    let m : Ref .copyManager := ⟨0⟩
    let sc : Scene backend := ⟨{}, { bench := (({} : Bench).newCopyManager "main" []).2 }, []⟩
    let bodies : Bodies backend .none := fun procedure => nomatch procedure
    ∃ sink sc₁ sc₂,
      (CopyManager.writeIn "COPY t FROM STDIN" [Bytes.line #[]]).ComesTo bodies .stepped f m sc
          (.succeeded (sink, 1)) sc₁ ∧
        (CopyManager.loadAll "COPY t FROM STDIN" (Bytes.lines [#[]])).ComesTo bodies .stepped f m sc
          (.succeeded 0) sc₂ := by
  intro f m sc bodies
  have serves : Serves f m [] sc := ⟨rfl, fun o => by cases o <;> rfl, rfl⟩
  obtain ⟨sink, sc₁, written, -⟩ :=
    serves.gives_writeIn bodies [] "COPY t FROM STDIN" [Bytes.line #[]]
  obtain ⟨sc₂, loaded, -⟩ :=
    serves.gives_copyInBytes bodies [] "COPY t FROM STDIN" (Bytes.lines [#[]])
  exact ⟨sink, _, _, written.comesTo .stepped, loaded.comesTo .stepped⟩

end Scenario
end Cancelable
