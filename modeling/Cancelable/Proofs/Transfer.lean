import Cancelable.Program.ReadAll
import Cancelable.Proofs.Account
import Cancelable.Proofs.Correspondence
import Cancelable.Proofs.Streaming

/-!
# Transfers from table to table

A transfer opens a stream out of a table, reads it to its end in an embedded program, opens a stream
into a table, and writes the rows one by one in a second embedded program, which ends the stream.
How many operations that takes depends on the rows that are read.  The same table can be had at
once, as one string of bytes.

What such a program does is shown by the rules for the meaning of programs, by induction on the
rows, without a stack; then it holds of the machine on every runtime.

Main statement: what is streamed out of a table is what is had at once, a transfer loses nothing,
and the table is left as it was (`Scenario.transfer_lossless`).
-/

namespace Cancelable

open Simulation (Ref)

variable {B : Backend} {P : Procedures} {α β ρ : Type} {a b : Algebra}

/-! ## Programs that succeed -/

/-- What a program does on a handle, inside programs of the algebras `around`: from the scene it
comes to a value and leaves a scene. -/
def Program.Gives (bodies : Bodies B P) (f : Fiber) (around : List Algebra) (handle : B.Handle a)
    (p : Program B P a α) (sc : Scene B) (x : α) (sc' : Scene B) : Prop :=
  ∃ ops, Means bodies f around handle p sc ops (.gives (.ok x)) sc'

namespace Program.Gives

variable {bodies : Bodies B P} {f : Fiber} {around : List Algebra} {handle : B.Handle a}
  {p : Program B P a α} {sc sc₁ sc₂ : Scene B} {x : α} {y : β}

theorem bind {k : α → Program B P a β} (first : p.Gives bodies f around handle sc x sc₁)
    (second : (k x).Gives bodies f around handle sc₁ y sc₂) :
    (Program.bind p k).Gives bodies f around handle sc y sc₂ := by
  obtain ⟨ops, first⟩ := first
  obtain ⟨ops', second⟩ := second
  exact ⟨ops ++ ops', .bind first second⟩

theorem andThen {q : Program B P a β} (first : p.Gives bodies f around handle sc x sc₁)
    (second : q.Gives bodies f around handle sc₁ y sc₂) :
    (p.andThen q).Gives bodies f around handle sc y sc₂ :=
  first.bind second

theorem pure : (Program.pure x : Program B P a α).Gives bodies f around handle sc x sc :=
  ⟨[], .pure⟩

theorem mapPure {g : α → β} (first : p.Gives bodies f around handle sc x sc₁) :
    (p.mapPure g).Gives bodies f around handle sc (g x) sc₁ := by
  obtain ⟨ops, first⟩ := first
  exact ⟨ops, .map first rfl⟩

theorem call {procedure : P a α}
    (body : (bodies procedure).Gives bodies f around handle sc x sc₁) :
    (Program.call procedure).Gives bodies f around handle sc x sc₁ := by
  obtain ⟨ops, body⟩ := body
  exact ⟨ops, .call body⟩

theorem embed {inner : B.Handle b} {p : Program B P b α}
    (clear : sc.fibers.isCanceled f = false)
    (body : p.Gives bodies f (a :: around) inner sc x sc₁) :
    (Program.embed inner p).Gives bodies f around handle sc x sc₁ := by
  obtain ⟨ops, body⟩ := body
  exact ⟨ops, .embed clear body⟩

theorem op {o : Op a} {x : Op.Answer B.Handle o} (clear : sc.fibers.isCanceled f = false)
    (host : (sc.emit (.primitiveCall a o) (a :: around)).host (B.invoke handle o) =
      (.ok (.ok x), sc₁)) :
    (Program.op o : Program B P a _).Gives bodies f around handle sc x sc₁ :=
  ⟨_, .op clear host⟩

end Program.Gives

/-- With every bound that is large enough the machine comes to the outcome and leaves the scene. -/
def Program.ComesTo (bodies : Bodies B P) (rt : Runtime) (f : Fiber) (handle : B.Handle a)
    (p : Program B P a ρ) (sc : Scene B) (o : Outcome ρ) (sc' : Scene B) : Prop :=
  ∃ enough, ∀ bound, enough ≤ bound →
    (⟨bodies, rt, bound⟩ : Machine B P).run f handle p sc = (.outcome o, sc')

/-- What has come to an end within the bound is finished so. -/
theorem Turn.finish_of_nth {S : Type 1} {turn : S → Scene B → Turn S ρ × Scene B}
    {first : Turn S ρ × Scene B} {e : Exit ρ} {sc : Scene B} {k bound : Nat} (le : k ≤ bound)
    (last : nth turn first k = (e.turn, sc)) : finish turn bound first = (e.ending, sc) := by
  have isOver : (nth turn first k).1.ending?.isSome = true := by
    rw [last, e.ending?_turn]
    rfl
  rw [finish_eq_nth, nth_of_over le isOver, last, e.ending?_turn]
  rfl

/-- What a program gives, the machine comes to, and reports. -/
theorem Program.Gives.comesTo {bodies : Bodies B P} {f : Fiber} {handle : B.Handle a}
    {p : Program B P a ρ} {sc sc' : Scene B} {x : ρ}
    (gives : p.Gives bodies f [] handle sc x sc') (rt : Runtime) :
    p.ComesTo bodies rt f handle sc (.succeeded x) (sc'.emit (.ended a (.ok ())) []) := by
  obtain ⟨ops, means⟩ := gives
  obtain ⟨n, ends⟩ := State.ends_iff.mpr ⟨sc', means, rfl⟩
  -- a program leaves the mask as it was, so there is nothing to restore at the end
  rw [Scene.setMask_eq_self (means.mask_eq rfl)] at ends
  refine ⟨n, fun bound le => ?_⟩
  obtain ⟨k, k_le, last⟩ := Run.nth_of_ends (a := a) ends le le
  exact Turn.finish_of_nth (Nat.le_trans k_le le) last

/-! ## The programs of a transfer -/

namespace CopyManager

/-- Open a stream out of a table, and read it to its end. -/
def readOut (sql : String) : Program B (Routine P) .copyManager (List Bytes) :=
  .bind (.op (a := .copyManager) (Op.copyOut sql)) fun stream => .embed stream CopyOut.readAll

end CopyManager

namespace CopyIn

/-- Write the rows, each after the one before. -/
def writeAll (rows : List Bytes) : Program B P .copyIn Unit :=
  rows.foldl (fun before row => before.andThen (.op (a := .copyIn) (Op.writeRow row))) .unit

/-- Write the rows, and end the stream. -/
def fill (rows : List Bytes) : Program B P .copyIn Int :=
  (writeAll rows).andThen (.op (a := .copyIn) Op.finish)

end CopyIn

namespace CopyManager

/-- Open a stream into a table, and fill it; the value is the stream, with the count that its end
has yielded. -/
def writeIn (sql : String) (rows : List Bytes) :
    Program B P .copyManager (B.Handle .copyIn × Int) :=
  .bind (.op (a := .copyManager) (Op.copyIn sql)) fun sink =>
    (Program.embed sink (CopyIn.fill rows)).mapPure fun count => (sink, count)

/-- Read the rows of a table, and write them into another. -/
def transfer (source target : String) :
    Program B (Routine P) .copyManager (B.Handle .copyIn × Int) :=
  .bind (readOut source) (writeIn target)

end CopyManager

/-! ## What they give -/

namespace Scenario

open Simulation (Bench)

section Transfer

variable {f : Fiber} {m : Ref .copyManager} {table : List Bytes} {sc : Scene backend}

/-- Reports do not disturb. -/
theorem Serves.emit (h : Serves f m table sc) (happening : Happening) (spans : List Algebra) :
    Serves f m table (sc.emit happening spans) :=
  ⟨h.table, h.clear, h.uncanceled⟩

theorem Reads.emit {r : Ref .copyOut} {s : Simulation.CopyOut} (h : Reads f r s sc)
    (happening : Happening) (spans : List Algebra) : Reads f r s (sc.emit happening spans) :=
  ⟨h.stream, h.clear, h.uncanceled⟩

theorem Writes.emit {r : Ref .copyIn} {s : Simulation.CopyIn} (h : Writes f r s sc)
    (happening : Happening) (spans : List Algebra) : Writes f r s (sc.emit happening spans) :=
  ⟨h.stream, h.clear, h.uncanceled⟩

section Operations

variable (bodies : Bodies backend P) (around : List Algebra)

theorem Reads.gives_readRow {r : Ref .copyOut} {s : Simulation.CopyOut} (reads : Reads f r s sc)
    (serves : Serves f m table sc) :
    ∃ sc', Program.Gives bodies f around r (.op (a := .copyOut) CopyOut.Op.readRow) sc
        (Simulation.CopyOut.readRow s).1 sc' ∧
      Reads f r (Simulation.CopyOut.readRow s).2 sc' ∧ Serves f m table sc' := by
  have reads := reads.emit (.primitiveCall .copyOut CopyOut.Op.readRow) (.copyOut :: around)
  have serves := serves.emit (.primitiveCall .copyOut CopyOut.Op.readRow) (.copyOut :: around)
  obtain ⟨journals, host⟩ := reads.host_readRow
  exact ⟨_, .op serves.uncanceled host, reads.set (Simulation.CopyOut.probe_readRow s) journals,
    serves.keep rfl fun i op clear => clear⟩

theorem Writes.gives_writeRow {r : Ref .copyIn} {s : Simulation.CopyIn} (writes : Writes f r s sc)
    (active : s.active = true) (serves : Serves f m table sc) (row : Bytes) :
    ∃ sc', Program.Gives bodies f around r (.op (a := .copyIn) (CopyIn.Op.writeRow row)) sc ()
        sc' ∧
      Writes f r { s with latest := row :: s.latest } sc' ∧ Serves f m table sc' := by
  have writes := writes.emit (.primitiveCall .copyIn (CopyIn.Op.writeRow row)) (.copyIn :: around)
  have serves := serves.emit (.primitiveCall .copyIn (CopyIn.Op.writeRow row)) (.copyIn :: around)
  obtain ⟨journals, host⟩ := writes.host_writeRow active row
  exact ⟨_, .op serves.uncanceled host, writes.set (by rfl) journals,
    serves.keep rfl fun i op clear => clear⟩

theorem Writes.gives_finish {r : Ref .copyIn} {s : Simulation.CopyIn} (writes : Writes f r s sc)
    (active : s.active = true) (serves : Serves f m table sc) :
    ∃ sc', Program.Gives bodies f around r (.op (a := .copyIn) CopyIn.Op.finish) sc
        (s.rows.length : Int) sc' ∧
      Writes f r { s with active := false } sc' ∧ Serves f m table sc' := by
  have writes := writes.emit (.primitiveCall .copyIn CopyIn.Op.finish) (.copyIn :: around)
  have serves := serves.emit (.primitiveCall .copyIn CopyIn.Op.finish) (.copyIn :: around)
  obtain ⟨journals, host⟩ := writes.host_finish active
  exact ⟨_, .op serves.uncanceled host, writes.set (by rfl) journals,
    serves.keep rfl fun i op clear => clear⟩

theorem Serves.gives_copyOut (serves : Serves f m table sc) (sql : String) :
    ∃ stream sc' probe, Program.Gives bodies f around m
        (.op (a := .copyManager) (CopyManager.Op.copyOut sql)) sc stream sc' ∧
      Reads f stream { probe, fields := 1, pending := table } sc' ∧ Serves f m table sc' := by
  have emitted := serves.emit (.primitiveCall .copyManager (CopyManager.Op.copyOut sql))
    (.copyManager :: around)
  obtain ⟨stream, sc', probe, host, opened⟩ := emitted.host_copyOut sql
  exact ⟨stream, sc', probe, .op serves.uncanceled host, opened⟩

theorem Serves.gives_copyIn (serves : Serves f m table sc) (sql : String) :
    ∃ sink sc' probe, Program.Gives bodies f around m
        (.op (a := .copyManager) (CopyManager.Op.copyIn sql)) sc sink sc' ∧
      Writes f sink { probe, fields := 1 } sc' ∧ Serves f m table sc' := by
  have emitted := serves.emit (.primitiveCall .copyManager (CopyManager.Op.copyIn sql))
    (.copyManager :: around)
  obtain ⟨sink, sc', probe, host, opened⟩ := emitted.host_copyIn sql
  exact ⟨sink, sc', probe, .op serves.uncanceled host, opened⟩

theorem Serves.gives_copyOutBytes (serves : Serves f m table sc) (sql : String) :
    ∃ sc', Program.Gives bodies f around m
        (.op (a := .copyManager) (CopyManager.Op.copyOutBytes sql)) sc
        (table.foldl (· ++ ·) #[]) sc' ∧
      Serves f m table sc' := by
  have emitted := serves.emit (.primitiveCall .copyManager (CopyManager.Op.copyOutBytes sql))
    (.copyManager :: around)
  obtain ⟨sc', host, same⟩ := emitted.host_copyOutBytes sql
  exact ⟨sc', .op serves.uncanceled host, same⟩

theorem Serves.gives_copyInBytes (serves : Serves f m table sc) (sql : String) (data : Bytes) :
    ∃ sc', Program.Gives bodies f around m
        (.op (a := .copyManager) (CopyManager.Op.copyInBytes sql data)) sc
        (data.countLines : Int) sc' ∧
      Serves f m table sc' := by
  have emitted := serves.emit (.primitiveCall .copyManager (CopyManager.Op.copyInBytes sql data))
    (.copyManager :: around)
  obtain ⟨sc', host, same⟩ := emitted.host_copyInBytes sql data
  exact ⟨sc', .op serves.uncanceled host, same⟩

/-- By induction on the rows, for whatever has been done before. -/
theorem Writes.gives_foldl {sc₀ : Scene backend} {r : Ref .copyIn} {s : Simulation.CopyIn}
    {before : Program backend P .copyIn Unit} (done : before.Gives bodies f around r sc₀ () sc)
    (writes : Writes f r s sc) (active : s.active = true) (serves : Serves f m table sc)
    (rows : List Bytes) :
    ∃ sc', (rows.foldl (fun before row =>
        before.andThen (.op (a := .copyIn) (CopyIn.Op.writeRow row))) before).Gives bodies f around
          r sc₀ () sc' ∧
      Writes f r { s with latest := rows.reverse ++ s.latest } sc' ∧ Serves f m table sc' := by
  -- the fold puts each write after all those before it, not before all that follow
  induction rows generalizing before s sc with
  | nil => exact ⟨sc, done, writes, serves⟩
  | cons row rest ih =>
    obtain ⟨sc₁, wrote, writes, serves⟩ := writes.gives_writeRow bodies around active serves row
    obtain ⟨sc₂, all, writes, serves⟩ := ih (done.andThen wrote) writes active serves
    refine ⟨sc₂, all, ?_, serves⟩
    simpa using writes

/-- A stream that is filled holds the rows, and its end yields their number. -/
theorem Writes.gives_fill {r : Ref .copyIn} {s : Simulation.CopyIn} (writes : Writes f r s sc)
    (active : s.active = true) (serves : Serves f m table sc) (rows : List Bytes) :
    ∃ sc', (CopyIn.fill rows).Gives bodies f around r sc ((s.rows ++ rows).length : Int) sc' ∧
      (sc'.world.bench.copyIns.get r.index).rows = s.rows ++ rows ∧ Serves f m table sc' := by
  obtain ⟨sc₁, wrote, writes, serves⟩ :=
    Writes.gives_foldl bodies around .pure writes active serves rows
  have all : { s with latest := rows.reverse ++ s.latest }.rows = s.rows ++ rows := by
    simp [Simulation.CopyIn.rows]
  obtain ⟨sc₂, ended, writes, serves⟩ := writes.gives_finish bodies around active serves
  rw [all] at ended
  refine ⟨sc₂, Program.Gives.andThen wrote ended, ?_, serves⟩
  rw [writes.stream]
  exact all

/-- A stream that is opened and filled holds the rows and no others. -/
theorem Serves.gives_writeIn (serves : Serves f m table sc) (sql : String) (rows : List Bytes) :
    ∃ sink sc', (CopyManager.writeIn sql rows).Gives bodies f around m sc
        (sink, (rows.length : Int)) sc' ∧
      (sc'.world.bench.copyIns.get sink.index).rows = rows ∧ Serves f m table sc' := by
  obtain ⟨sink, sc₁, probe, opened, writes, serves⟩ := serves.gives_copyIn bodies around sql
  obtain ⟨sc₂, filled, written, serves'⟩ :=
    writes.gives_fill bodies (.copyManager :: around) rfl serves rows
  -- the sink had no rows before
  have count : (CopyIn.fill rows).Gives bodies f (.copyManager :: around) sink sc₁
      (rows.length : Int) sc₂ := filled
  exact ⟨sink, sc₂, opened.bind (.mapPure (.embed serves.uncanceled count)), written, serves'⟩

end Operations

section Reading

variable (bodies : {a : Algebra} → {α : Type} → P a α → Program backend (Routine P) a α)
  (around : List Algebra)

/-- By induction on the rows that are pending: they are collected back to front. -/
theorem Reads.gives_remainingRows {r : Ref .copyOut} {s : Simulation.CopyOut} {rows : List Bytes}
    (pending : s.pending = rows) (reads : Reads f r s sc) (active : s.active = true)
    (serves : Serves f m table sc) :
    ∃ sc', Program.Gives (Routine.body bodies) f around r CopyOut.remainingRows sc
      rows.reverse.toArray sc' ∧ Serves f m table sc' := by
  induction rows generalizing s sc with
  | nil =>
    obtain ⟨sc₁, read, -, serves⟩ := reads.gives_readRow (Routine.body bodies) around serves
    rw [Simulation.CopyOut.readRow_of_empty active pending] at read
    exact ⟨sc₁, read.bind .pure, serves⟩
  | cons row rest ih =>
    obtain ⟨sc₁, read, reads, serves⟩ := reads.gives_readRow (Routine.body bodies) around serves
    rw [Simulation.CopyOut.readRow_of_row active pending] at read reads
    obtain ⟨sc₂, others, serves⟩ := ih rfl reads active serves
    have collected : (rest.reverse.toArray).push row = (row :: rest).reverse.toArray := by simp
    have after : (CopyOut.afterRow (some row)).Gives (Routine.body bodies) f around r sc₁
        (rest.reverse.toArray.push row) sc₂ :=
      .mapPure (.call others)
    rw [collected] at after
    exact ⟨sc₂, read.bind after, serves⟩

theorem Reads.gives_readAll {r : Ref .copyOut} {s : Simulation.CopyOut} (reads : Reads f r s sc)
    (active : s.active = true) (serves : Serves f m table sc) :
    ∃ sc', Program.Gives (Routine.body bodies) f around r CopyOut.readAll sc s.pending sc' ∧
      Serves f m table sc' := by
  obtain ⟨sc', collected, serves⟩ := reads.gives_remainingRows bodies around rfl active serves
  have reversed : s.pending.reverse.toArray.reverse.toList = s.pending := by simp
  have all : Program.Gives (Routine.body bodies) f around r CopyOut.readAll sc
      s.pending.reverse.toArray.reverse.toList sc' := .mapPure (.call collected)
  rw [reversed] at all
  exact ⟨sc', all, serves⟩

theorem Serves.gives_readOut (serves : Serves f m table sc) (sql : String) :
    ∃ sc', Program.Gives (Routine.body bodies) f around m (CopyManager.readOut sql) sc table sc' ∧
      Serves f m table sc' := by
  obtain ⟨stream, sc₁, probe, opened, reads, serves⟩ :=
    serves.gives_copyOut (Routine.body bodies) around sql
  obtain ⟨sc₂, read, serves'⟩ := reads.gives_readAll bodies (.copyManager :: around) rfl serves
  exact ⟨sc₂, opened.bind (.embed serves.uncanceled read), serves'⟩

theorem Serves.gives_transfer (serves : Serves f m table sc) (source target : String) :
    ∃ sink sc', Program.Gives (Routine.body bodies) f around m
        (CopyManager.transfer source target) sc (sink, (table.length : Int)) sc' ∧
      (sc'.world.bench.copyIns.get sink.index).rows = table ∧ Serves f m table sc' := by
  obtain ⟨sc₁, read, serves⟩ := serves.gives_readOut bodies around source
  obtain ⟨sink, sc₂, written, rows, serves⟩ :=
    serves.gives_writeIn (Routine.body bodies) around target table
  exact ⟨sink, sc₂, read.bind written, rows, serves⟩

end Reading

end Transfer

/-! ## Nothing is lost -/

open Bytes (toList_foldl_append)

section Main

variable (bodies : {a : Algebra} → {α : Type} → P a α → Program backend (Routine P) a α)
  (rt : Runtime)

/-- Whatever the rows of the table are, on every runtime: the rows that are streamed out of it are
its rows, and put one after another they are the bytes that are had at once; a transfer yields the
number of the rows, and its sink holds them.  The table is left as it was, so all of this can be
done again. -/
theorem transfer_lossless {f : Fiber} {m : Ref .copyManager} {table : List Bytes}
    {sc : Scene backend} (serves : Serves f m table sc) (source target : String) :
    (∃ rows bytes sc₁ sc₂,
      (CopyManager.readOut source).ComesTo (Routine.body bodies) rt f m sc (.succeeded rows) sc₁ ∧
        (Program.op (a := .copyManager) (CopyManager.Op.copyOutBytes source)).ComesTo
          (Routine.body bodies) rt f m sc (.succeeded bytes) sc₂ ∧
        rows.flatMap Array.toList = bytes.toList ∧ rows = table ∧
        Serves f m table sc₁ ∧ Serves f m table sc₂) ∧
    ∃ sink sc', (CopyManager.transfer source target).ComesTo (Routine.body bodies) rt f m sc
        (.succeeded (sink, (table.length : Int))) sc' ∧
      (sc'.world.bench.copyIns.get sink.index).rows = table ∧ Serves f m table sc' := by
  constructor
  · obtain ⟨sc₁, read, again⟩ := serves.gives_readOut bodies [] source
    obtain ⟨sc₂, fetched, again'⟩ := serves.gives_copyOutBytes (Routine.body bodies) [] source
    refine ⟨table, _, _, _, read.comesTo rt, fetched.comesTo rt, ?_, rfl, again.emit _ _,
      again'.emit _ _⟩
    exact (toList_foldl_append #[] table).symm
  · obtain ⟨sink, sc₁, moved, rows, again⟩ := serves.gives_transfer bodies [] source target
    exact ⟨sink, _, moved.comesTo rt, rows, again.emit _ _⟩

end Main

/-- Two transfers out of a table of three rows, one of them empty: the sink of each holds all
three. -/
theorem transfer_lossless_twice :
    let f : Fiber := .ofName "f"
    let m : Ref .copyManager := ⟨0⟩
    let table : List Bytes := [#[97, 10], #[], #[98]]
    let sc : Scene backend := ⟨{}, { bench := (({} : Bench).newCopyManager "main" table).2 }, []⟩
    let bodies : {a : Algebra} → {α : Type} → Procedures.none a α →
      Program backend (Routine .none) a α := fun procedure => nomatch procedure
    let transfer := CopyManager.transfer "COPY t TO STDOUT" "COPY u FROM STDIN"
    ∃ sink sc₁ sink' sc₂,
      transfer.ComesTo (Routine.body bodies) .stepped f m sc (.succeeded (sink, 3)) sc₁ ∧
        (sc₁.world.bench.copyIns.get sink.index).rows = table ∧
        transfer.ComesTo (Routine.body bodies) .stepped f m sc₁ (.succeeded (sink', 3)) sc₂ ∧
        (sc₂.world.bench.copyIns.get sink'.index).rows = table := by
  intro f m table sc bodies transfer
  have serves : Serves f m table sc := ⟨rfl, fun o => by cases o <;> rfl, rfl⟩
  obtain ⟨-, sink, sc₁, first, rows, serves⟩ :=
    transfer_lossless bodies .stepped serves "COPY t TO STDOUT" "COPY u FROM STDIN"
  obtain ⟨-, sink', sc₂, second, rows', -⟩ :=
    transfer_lossless bodies .stepped serves "COPY t TO STDOUT" "COPY u FROM STDIN"
  exact ⟨sink, sc₁, sink', sc₂, first, rows, second, rows'⟩

end Scenario

end Cancelable
