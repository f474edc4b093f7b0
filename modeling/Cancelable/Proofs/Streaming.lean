import Cancelable.Proofs.Performance
import Cancelable.Scenario.World
import Cancelable.Scene

/-!
# Simulated row streams in use

What reading from a stream, writing to one and opening one do to the bench, provided that no failure
has been scripted for it, and to the scene of a scenario.

Main statements: the reads of an active stream yield its rows in order and then nothing
(`CopyOut.readRow_afterReads`), after one read more than there were rows it is empty and inactive
(`CopyOut.afterReads_all`), and a stream that is opened out of a table has all its rows pending
(`Scenario.Serves.host_copyOut`).
-/

namespace Cancelable
namespace Simulation

/-! ## A stream that is read -/

namespace CopyOut

variable {s : CopyOut}

/-- The stream after a number of reads. -/
def afterReads (s : CopyOut) : Nat → CopyOut
  | 0 => s
  | n + 1 => (readRow (s.afterReads n)).2

theorem readRow_of_row {row : Bytes} {rest : List Bytes} (active : s.active = true)
    (pending : s.pending = row :: rest) :
    readRow s = (some row, { s with pending := rest, handled := s.handled + 1 }) := by
  simp [readRow, active, pending]

theorem readRow_of_empty (active : s.active = true) (pending : s.pending = []) :
    readRow s = (none, { s with active := false }) := by
  simp [readRow, active, pending]

theorem readRow_of_inactive (inactive : s.active = false) : readRow s = (none, s) := by
  simp [readRow, inactive]

/-- A read of a stream some rows of which have been taken. -/
theorem readRow_drop (active : s.active = true) {n : Nat} (lt : n < s.pending.length) :
    readRow { s with pending := s.pending.drop n, handled := s.handled + n } =
      (some s.pending[n],
        { s with pending := s.pending.drop (n + 1), handled := s.handled + (n + 1 : Nat) }) := by
  have next : s.pending.drop n = s.pending[n] :: s.pending.drop (n + 1) :=
    List.drop_eq_getElem_cons lt
  simp only [readRow, active, next, if_true, Int.add_assoc, Int.natCast_succ]

/-- As long as there are rows, each read takes the first of them and counts it. -/
theorem afterReads_of_le (active : s.active = true) {n : Nat} (le : n ≤ s.pending.length) :
    s.afterReads n = { s with pending := s.pending.drop n, handled := s.handled + n } := by
  induction n with
  | zero => simp [afterReads]
  | succ n ih => rw [afterReads, ih (Nat.le_of_succ_le le), readRow_drop active le]

/-- After all rows the stream is active still, and empty. -/
theorem afterReads_rows (active : s.active = true) :
    (s.afterReads s.pending.length).active = true ∧
      (s.afterReads s.pending.length).pending = [] := by
  rw [afterReads_of_le active (Nat.le_refl _)]
  exact ⟨active, List.drop_length⟩

/-- One read more finds the end. -/
theorem afterReads_all (active : s.active = true) :
    s.afterReads (s.pending.length + 1) =
      { s with pending := [], handled := s.handled + s.pending.length, active := false } := by
  obtain ⟨stillActive, empty⟩ := afterReads_rows active
  rw [afterReads, readRow_of_empty stillActive empty, afterReads_of_le active (Nat.le_refl _)]
  simp

theorem inactive_afterReads (active : s.active = true) {n : Nat} (lt : s.pending.length < n) :
    (s.afterReads n).active = false := by
  induction lt with
  | refl => rw [afterReads_all active]
  | step _ ih => rw [afterReads, readRow_of_inactive ih, ih]

/-- The reads yield the rows in order, and then nothing. -/
theorem readRow_afterReads (active : s.active = true) (n : Nat) :
    (readRow (s.afterReads n)).1 = s.pending[n]? := by
  rcases Nat.lt_trichotomy n s.pending.length with lt | rfl | gt
  · rw [afterReads_of_le active (Nat.le_of_lt lt), readRow_drop active lt,
      List.getElem?_eq_getElem lt]
  · obtain ⟨stillActive, empty⟩ := afterReads_rows active
    rw [readRow_of_empty stillActive empty, List.getElem?_eq_none (Nat.le_refl _)]
  · rw [readRow_of_inactive (inactive_afterReads active gt),
      List.getElem?_eq_none (Nat.le_of_lt gt)]

end CopyOut

end Simulation

/-! ## Performing in a scene -/

namespace Scenario

open Simulation

/-- What an operation that succeeds does to the scene. -/
theorem host_perform {sc : Scene backend} {a : Algebra} {r : Ref a} {o : Op a}
    {x : Op.Answer Ref o} {b : Bench} (performed : sc.world.bench.perform r o = (.ok x, b)) :
    sc.host (perform r o) = (.ok (.ok x), { sc with world := { sc.world with bench := b } }) := by
  simp [Scene.host, perform, performed, Fibers.cancelAll]

/-- In the scene the stream `r` is as `s` says, its reads are not scripted to fail, and the fiber is
not canceled. -/
structure Reads (f : Fiber) (r : Ref .copyOut) (s : Simulation.CopyOut) (sc : Scene backend) :
    Prop where
  stream : sc.world.bench.copyOuts.get r.index = s
  clear : sc.world.bench.Unscripted r (CopyOut.Op.readRow : Op .copyOut)
  uncanceled : sc.fibers.isCanceled f = false

/-- A read changes the stream, and the journal that it is recorded in. -/
theorem Reads.host_readRow {f : Fiber} {r : Ref .copyOut} {s : Simulation.CopyOut}
    {sc : Scene backend} (h : Reads f r s sc) :
    ∃ journals, sc.host (perform r (CopyOut.Op.readRow : Op .copyOut)) =
      (.ok (.ok (Simulation.CopyOut.readRow s).1), { sc with
        world := { sc.world with
          bench := { sc.world.bench with
            journals
            copyOuts := sc.world.bench.copyOuts.set r.index
              (Simulation.CopyOut.readRow s).2 } } }) := by
  obtain ⟨rfl, clear, -⟩ := h
  exact ⟨_, host_perform (Bench.perform_eq_ok_iff.mpr ⟨rfl, clear, rfl⟩)⟩

/-- A change of the stream that keeps its probe leaves its reads unscripted. -/
theorem Reads.set {f : Fiber} {r : Ref .copyOut} {s s' : Simulation.CopyOut} {sc : Scene backend}
    (h : Reads f r s sc) (probe : s'.probe = s.probe)
    (journals : Std.ExtTreeMap String Journal) :
    Reads f r s' { sc with
      world := { sc.world with
        bench := { sc.world.bench with
          journals
          copyOuts := sc.world.bench.copyOuts.set r.index s' } } } := by
  refine ⟨Cells.get_set_self .., ?_, h.uncanceled⟩
  -- which probe counts for the stream is read off the stream itself
  have clear := h.clear
  simp only [Bench.Unscripted, Bench.probeOf, Cells.get_set_self, h.stream, probe] at clear ⊢
  exact clear

theorem Reads.after_readRow {f : Fiber} {r : Ref .copyOut} {s : Simulation.CopyOut}
    {sc : Scene backend} (h : Reads f r s sc) :
    ∃ sc', sc.host (perform r (CopyOut.Op.readRow : Op .copyOut)) =
        (.ok (.ok (Simulation.CopyOut.readRow s).1), sc') ∧
      Reads f r (Simulation.CopyOut.readRow s).2 sc' := by
  obtain ⟨journals, host⟩ := h.host_readRow
  exact ⟨_, host, h.set (Simulation.CopyOut.probe_readRow s) journals⟩

/-! ## A stream that is written -/

/-- In the scene the stream `r` is as `s` says, its operations are not scripted to fail, and the
fiber is not canceled. -/
structure Writes (f : Fiber) (r : Ref .copyIn) (s : Simulation.CopyIn) (sc : Scene backend) :
    Prop where
  stream : sc.world.bench.copyIns.get r.index = s
  clear : ∀ o : Op .copyIn, sc.world.bench.Unscripted r o
  uncanceled : sc.fibers.isCanceled f = false

section Writing

variable {f : Fiber} {r : Ref .copyIn} {s : Simulation.CopyIn} {sc : Scene backend}

/-- Nothing is turned away by an active stream. -/
theorem Writes.accepts (h : Writes f r s sc) (active : s.active = true) (o : Op .copyIn) :
    sc.world.bench.turnsAway r o = none := by
  have active : (sc.world.bench.copyIns.get r.index).active = true := by rw [h.stream, active]
  cases o <;> simp [Bench.turnsAway, Bench.turnsAway.inactive, active]

/-- A change of the stream that keeps its probe leaves its operations unscripted. -/
theorem Writes.set (h : Writes f r s sc) {s' : Simulation.CopyIn} (probe : s'.probe = s.probe)
    (journals : Std.ExtTreeMap String Journal) :
    Writes f r s' { sc with
      world := { sc.world with
        bench := { sc.world.bench with
          journals
          copyIns := sc.world.bench.copyIns.set r.index s' } } } := by
  refine ⟨Cells.get_set_self .., fun o => ?_, h.uncanceled⟩
  have clear := h.clear o
  simp only [Bench.Unscripted, Bench.probeOf, Cells.get_set_self, h.stream, probe] at clear ⊢
  exact clear

/-- A row that is written is the last one of the stream. -/
theorem Writes.host_writeRow (h : Writes f r s sc) (active : s.active = true) (row : Bytes) :
    ∃ journals, sc.host (perform r (CopyIn.Op.writeRow row : Op .copyIn)) =
      (.ok (.ok ()), { sc with
        world := { sc.world with
          bench := { sc.world.bench with
            journals
            copyIns := sc.world.bench.copyIns.set r.index
              { s with latest := row :: s.latest } } } }) := by
  have accepted := h.accepts active (CopyIn.Op.writeRow row)
  obtain ⟨rfl, clear, -⟩ := h
  exact ⟨_, host_perform (Bench.perform_eq_ok_iff.mpr ⟨accepted, clear _, rfl⟩)⟩

/-- The end of the stream yields the number of its rows. -/
theorem Writes.host_finish (h : Writes f r s sc) (active : s.active = true) :
    ∃ journals, sc.host (perform r (CopyIn.Op.finish : Op .copyIn)) =
      (.ok (.ok (s.rows.length : Int)), { sc with
        world := { sc.world with
          bench := { sc.world.bench with
            journals
            copyIns := sc.world.bench.copyIns.set r.index { s with active := false } } } }) := by
  have accepted := h.accepts active CopyIn.Op.finish
  obtain ⟨rfl, clear, -⟩ := h
  -- the rows are counted once the stream has been closed, which adds none and drops none
  have count := congrArg (fun s : Simulation.CopyIn => (s.rows.length : Int))
    (Cells.get_set_self sc.world.bench.copyIns r.index
      { sc.world.bench.copyIns.get r.index with active := false })
  exact ⟨_, host_perform (Bench.perform_eq_ok_iff.mpr ⟨accepted, clear _,
    congrArg (fun n => Except.ok (n, _)) count⟩)⟩

end Writing

/-! ## What opens streams -/

/-- In the scene `r` opens streams out of the table, its operations are not scripted to fail, and
the fiber is not canceled. -/
structure Serves (f : Fiber) (r : Ref .copyManager) (table : List Bytes) (sc : Scene backend) :
    Prop where
  table : (sc.world.bench.copyManagers.get r.index).table = table
  clear : ∀ o : Op .copyManager, sc.world.bench.Unscripted r o
  uncanceled : sc.fibers.isCanceled f = false

section Opening

variable {f : Fiber} {sc : Scene backend}

/-- A new probe has no failure scripted, and the others have what they had. -/
theorem fault?_add {probes : Cells Probe} {i : Nat} {op : String} (journal : String)
    (clear : i = probes.size ∨ (probes.get i).fault? op = none) :
    ((probes.add { journal }).2.get i).fault? op = none := by
  rw [Cells.get_add]
  split
  · simp [Probe.fault?]
  · next old => exact clear.resolve_left (Ne.symm old)

/-- A new stream out of a table has its rows pending. -/
theorem reads_newCopyOut (uncanceled : sc.fibers.isCanceled f = false) (b : Bench)
    (journal : String) (fields : Int) (rows : List Bytes) :
    Reads f (b.newCopyOut journal fields rows).1
      { probe := b.probes.size, fields, pending := rows }
      { sc with world := { sc.world with bench := (b.newCopyOut journal fields rows).2 } } := by
  have stream : (b.newCopyOut journal fields rows).2.copyOuts.get
      (b.newCopyOut journal fields rows).1.index =
        { probe := b.probes.size, fields, pending := rows } :=
    (Cells.get_add ..).trans (if_pos rfl)
  refine ⟨stream, ?_, uncanceled⟩
  rw [Bench.Unscripted, Bench.probeOf, stream]
  exact fault?_add journal (.inl rfl)

/-- A new stream into a table has no rows. -/
theorem writes_newCopyIn (uncanceled : sc.fibers.isCanceled f = false) (b : Bench)
    (journal : String) (fields : Int) :
    Writes f (b.newCopyIn journal fields).1 { probe := b.probes.size, fields }
      { sc with world := { sc.world with bench := (b.newCopyIn journal fields).2 } } := by
  have stream : (b.newCopyIn journal fields).2.copyIns.get (b.newCopyIn journal fields).1.index =
      { probe := b.probes.size, fields } :=
    (Cells.get_add ..).trans (if_pos rfl)
  refine ⟨stream, fun o => ?_, uncanceled⟩
  rw [Bench.Unscripted, Bench.probeOf, stream]
  exact fault?_add journal (.inl rfl)

variable {r : Ref .copyManager} {table : List Bytes}

/-- What changes neither the tables nor the scripted failures, except for those of new probes, does
not disturb. -/
theorem Serves.keep (h : Serves f r table sc) {b : Bench}
    (managers : b.copyManagers = sc.world.bench.copyManagers)
    (probes : ∀ i op, (sc.world.bench.probes.get i).fault? op = none →
      (b.probes.get i).fault? op = none) :
    Serves f r table { sc with world := { sc.world with bench := b } } := by
  refine ⟨?_, fun o => ?_, h.uncanceled⟩
  · show (b.copyManagers.get r.index).table = table
    rw [managers, h.table]
  · show (b.probes.get (b.copyManagers.get r.index).probe).fault? o.key = none
    rw [managers]
    exact probes _ _ (h.clear o)

/-- All rows of the table are pending in a stream that is opened out of it. -/
theorem Serves.host_copyOut (h : Serves f r table sc) (sql : String) :
    ∃ stream sc' probe, sc.host (perform r (CopyManager.Op.copyOut sql : Op .copyManager)) =
        (.ok (.ok stream), sc') ∧
      Reads f stream { probe, fields := 1, pending := table } sc' ∧ Serves f r table sc' := by
  have opened := host_perform (Bench.perform_eq_ok_iff.mpr
    ⟨rfl, h.clear (CopyManager.Op.copyOut sql), rfl⟩)
  obtain rfl := h.table
  exact ⟨_, _, _, opened, reads_newCopyOut h.uncanceled .., h.keep rfl fun i op clear =>
    fault?_add _ (.inr clear)⟩

/-- A stream that is opened into a table is active and has no rows. -/
theorem Serves.host_copyIn (h : Serves f r table sc) (sql : String) :
    ∃ sink sc' probe, sc.host (perform r (CopyManager.Op.copyIn sql : Op .copyManager)) =
        (.ok (.ok sink), sc') ∧
      Writes f sink { probe, fields := 1 } sc' ∧ Serves f r table sc' := by
  have opened := host_perform (Bench.perform_eq_ok_iff.mpr
    ⟨rfl, h.clear (CopyManager.Op.copyIn sql), rfl⟩)
  exact ⟨_, _, _, opened, writes_newCopyIn h.uncanceled .., h.keep rfl fun i op clear =>
    fault?_add _ (.inr clear)⟩

/-- At once the rows are had one after another. -/
theorem Serves.host_copyOutBytes (h : Serves f r table sc) (sql : String) :
    ∃ sc', sc.host (perform r (CopyManager.Op.copyOutBytes sql : Op .copyManager)) =
        (.ok (.ok (table.foldl (· ++ ·) #[])), sc') ∧ Serves f r table sc' := by
  have opened := host_perform (Bench.perform_eq_ok_iff.mpr
    ⟨rfl, h.clear (CopyManager.Op.copyOutBytes sql), rfl⟩)
  obtain rfl := h.table
  exact ⟨_, opened, h.keep rfl fun i op clear => clear⟩

/-- Rows that are brought in at once are counted, and not kept. -/
theorem Serves.host_copyInBytes (h : Serves f r table sc) (sql : String) (data : Bytes) :
    ∃ sc', sc.host (perform r (CopyManager.Op.copyInBytes sql data : Op .copyManager)) =
        (.ok (.ok (data.countLines : Int)), sc') ∧ Serves f r table sc' := by
  have counted := host_perform (Bench.perform_eq_ok_iff.mpr
    ⟨rfl, h.clear (CopyManager.Op.copyInBytes sql data), rfl⟩)
  exact ⟨_, counted, h.keep rfl fun i op clear => clear⟩

end Opening

end Scenario
end Cancelable
