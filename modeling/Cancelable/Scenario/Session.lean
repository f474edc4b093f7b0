import Cancelable.Scenario.Setting

/-!
# Sessions

A session carries out the steps of a scenario one after another: it runs programs and effects to
their end or turn by turn, handles fibers, and works on the simulated resources directly.  Each
step is answered with its result and with what happened meanwhile.
-/

namespace Cancelable
namespace Scenario

open Simulation

/-! ## Commands -/

/-- A question to a journal, or a change of it. -/
inductive JournalQuery where
  | entries
  | ops
  | details (op : String)
  | count (op : String)
  | record (op detail : String)
  | clear

/-- What a step asks for. -/
inductive Command where
  | run (on : String) (program : Code) (fiber : Option String)
  | start (on : String) (program : Code) (fiber : Option String) (name : String)
  | poll (task : String) (times : Nat)
  | drop (task : String)
  | build (a : Algebra) (name : String) (program : Code)
  | compile (a : Algebra) (name : String) (program : Code) (fiber : Option String)
  /-- Keep a copy of a compiled program by another name, perhaps in another fiber. -/
  | copyCompiled (a : Algebra) (source name : String) (fiber : Option String)
  | compiledFiber (compiled name : String)
  | execute (on : String) (effect : EffectCode)
  | startEffect (on : String) (effect : EffectCode) (name : String)
  | cancel (fiber : String)
  | fork (fiber name : String)
  | cloneFiber (fiber name : String)
  | fiber (fiber : String)
  | invoke (on op : String) (args : List Expr)
  | inspect (handle : String) (oid : Option Int)
  | fault (target op : String) (failure : Expr)
  /-- Begin an operation at the probe of a resource. -/
  | hit (target op detail : String)
  | notify (target channel payload : String)
  | journal (name : String) (query : JournalQuery)
  | embedded (on : String) (program : Code)

/-- A step, and the fiber that its answer is to show. -/
structure Step where
  command : Command
  fiber : Option String := none

/-! ## Answers -/

/-- The result of a step. -/
inductive Reply where
  | done
  | ended (ending : Ending Value)
  | pending
  | fiber (requested masked : Bool)
  | object (contents : Bytes) (closed : Bool)
  | rows (rows : List Bytes)
  | flag (b : Bool)
  | number (n : Nat)
  | entries (l : List Entry)
  | texts (l : List String)
  | embedded (algebra erased embedded : String)

/-- The answer to a step. -/
structure Answer where
  reply : Reply
  /-- What was written into the main journal since the previous step. -/
  journal : List Entry
  fiber : Option String
  events : List Event

/-! ## Tasks -/

/-- Something that may be given turns. -/
inductive Task : Type 1 where
  /-- A program before its first turn. -/
  | program {a : Algebra} (fiber : Option Fiber) (r : Ref a) (p : Prog a)
  | run {a : Algebra} (r : Run backend (Routine Script) a Value)
  /-- An effect before its first turn. -/
  | effect {a : Algebra} (r : Ref a) (e : Eff a)
  | effectRun {a : Algebra} (r : Ref a) (e : EffectRun backend (Routine Script) a Value)

/-- A turn of a task. -/
abbrev TaskTurn : Type 1 :=
  Turn Task Value × Scene backend

/-- Give a task a turn.  A program without a fiber gets a fresh one at its first turn. -/
def Task.turn (m : Machine backend (Routine Script)) : Task → Scene backend → TaskTurn
  | program fiber r p, sc =>
    let (f, fibers) :=
      match fiber with
      | some f => (f, sc.fibers)
      | none => sc.fibers.fresh
    Turn.wrap run ((Run.start f r p fibers).turn m { sc with fibers })
  | run r, sc => Turn.wrap run (r.turn m sc)
  | effect r e, sc => Turn.wrap (effectRun r) (e.start m r sc)
  | effectRun r e, sc => Turn.wrap (effectRun r) (e.turn m r sc)

def Task.abandon : Task → Scene backend → Scene backend
  | program .., sc => sc
  | run r, sc => r.abandon sc
  | effect .., sc => sc
  | effectRun _ e, sc => e.abandon sc

/-! ## Sessions -/

/-- A scenario in progress. -/
structure Session : Type 1 where
  setup : Setup
  runtime : Runtime
  scene : Scene backend
  tasks : List (String × Task) := []
  /-- How long the main journal was after the previous step. -/
  reported : Nat := 0

namespace Session

def start (runtime : Runtime) (failures : List (String × FailureSpec))
    (resources : List ResourceDeclaration) (definitions : List (String × Definition)) :
    Option Session :=
  (declareFailures failures { instant := 0 } []).map fun failures =>
    let (handles, bench) := placeAll resources {}
    { setup := { names := { failures, handles }, definitions }
      runtime
      scene := { fibers := {}, world := { bench, instants := 1 } } }

/-- The number of steps and turns after which a task is given up as endless. -/
def taskBound : Nat := 1000000000000

def machine (s : Session) : Machine backend (Routine Script) :=
  { bodies := bodies s.setup, runtime := s.runtime, bound := taskBound }

def tables (s : Session) : Tables :=
  s.scene.world.tables

def updateTables (s : Session) (f : Tables → Tables) : Session :=
  { s with scene.world.tables := f s.tables }

def host {α : Type} (s : Session) (code : Host World α) : Option (α × Session) :=
  match s.scene.host code with
  | (.ok x, scene) => some (x, { s with scene })
  | (.error _, _) => none

def hostEnding (s : Session) (code : Host World (Except Failure Value)) :
    Ending Value × Session :=
  match s.scene.host code with
  | (.ok (.ok v), scene) => (.outcome (.succeeded v), { s with scene })
  | (.ok (.error f), scene) => (.outcome (.errored f), { s with scene })
  | (.error p, scene) => (.panicked p, { s with scene })

def resource? (s : Session) (name : String) : Option Resource :=
  s.setup.names.handles.lookup name

def fiber? (s : Session) (name : Option String) : Option Fiber :=
  name.map s.tables.fiber

def buildProgram (s : Session) (a : Algebra) (program : Code) : Option (Prog a × Session) :=
  (s.host moment).bind fun (m, s) =>
  (program.build s.setup a { tables := m.tables } m.labels).map fun (p, _) => (p, s)

def buildEffect (s : Session) (a : Algebra) (effect : EffectCode) : Option (Eff a × Session) :=
  (s.host moment).bind fun (m, s) =>
  (effect.build s.setup a { tables := m.tables } m.labels).map fun (e, _) => (e, s)

/-- Build a program in such a way that it can be built again. -/
def keepProgram (s : Session) (a : Algebra) (program : Code) : Option (Built × Session) :=
  (s.host moment).bind fun (m, s) =>
  (program.build s.setup a { tables := m.tables } m.labels).map fun _ =>
    (.mk a program m.labels m.tables.programs, s)

def setTask (s : Session) (name : String) (task : Option Task) : Session :=
  let others := s.tasks.filter fun entry => entry.1 != name
  { s with
    tasks :=
      match task with
      | some t => (name, t) :: others
      | none => others }

/-- Have a new task ready under a name.  A task that had the name is given up: nothing refers to it
any more. -/
def addTask (s : Session) (name : String) (task : Task) : Session :=
  let scene :=
    match s.tasks.lookup name with
    | some old => old.abandon s.scene
    | none => s.scene
  { s with scene }.setTask name (some task)

def tell : Ending Value → Option Reply
  | .exhausted => none
  | e => some (.ended e)

def complete (s : Session) (task : Task) : Option (Reply × Session) :=
  let turn := Task.turn s.machine
  let (ending, scene) := Turn.finish turn taskBound (turn task s.scene)
  (tell ending).map fun reply => (reply, { s with scene })

def poll (s : Session) (name : String) : Nat → Task → Option (Reply × Session)
  | 0, task => some (.pending, s.setTask name (some task))
  | times + 1, task =>
    match task.turn s.machine s.scene with
    | (.pending task, scene) => { s with scene }.poll name times task
    | (t, scene) =>
      (t.ending?.bind tell).map fun reply => (reply, { s with scene }.setTask name none)

def inspect (b : Bench) (oid : Option Int) : Resource → Option Reply
  | ⟨.largeObject, r⟩ =>
    let object := b.largeObjects.get r.index
    some (.object (b.contents.get object.contents) object.closed)
  | ⟨.copyIn, r⟩ => some (.rows (b.copyIns.get r.index).rows)
  | ⟨.directory, r⟩ => oid.map fun oid => .flag (Directory.holds (b.directories.get r.index) oid)
  | ⟨.connection, r⟩ => oid.map fun oid =>
    let c := b.connections.get r.index
    .flag (Directory.holds (b.directories.get c.directory.index) oid)
  | _ => none

def askJournal (s : Session) (name : String) : JournalQuery → Reply × Session
  | .entries => (.entries (s.scene.world.bench.journal name).entries, s)
  | .ops => (.texts (s.scene.world.bench.journal name).ops, s)
  | .details op => (.texts ((s.scene.world.bench.journal name).details op), s)
  | .count op => (.number ((s.scene.world.bench.journal name).count op), s)
  | .record op detail =>
    (.done, { s with scene.world := s.scene.world.updateBench (·.record name op detail) })
  | .clear =>
    (.done, { s with scene.world := s.scene.world.updateBench (·.updateJournal name (·.clear)) })

def perform (s : Session) : Command → Option (Reply × Session)
  | .run on program fiber =>
    (s.resource? on).bind fun ⟨a, r⟩ =>
    (s.buildProgram a program).bind fun (p, s) => s.complete (.program (s.fiber? fiber) r p)
  | .start on program fiber name =>
    (s.resource? on).bind fun ⟨a, r⟩ =>
    (s.buildProgram a program).map fun (p, s) =>
      (.done, s.addTask name (.program (s.fiber? fiber) r p))
  | .poll name times => (s.tasks.lookup name).bind fun task => s.poll name times task
  | .drop name =>
    (s.tasks.lookup name).map fun task =>
      (.done, { s with scene := task.abandon s.scene }.setTask name none)
  | .build a name program =>
    (s.keepProgram a program).map fun (b, s) =>
      (.done, s.updateTables fun t => { t with programs := (name, b) :: t.programs })
  | .compile a name program fiber =>
    (s.keepProgram a program).map fun (b, s) =>
      let (f, fibers) :=
        match s.fiber? fiber with
        | some f => (f, s.scene.fibers)
        | none => s.scene.fibers.fresh
      (.done, { s with scene.fibers := fibers }.updateTables fun t =>
        { t with compiled := (name, ⟨a, b, f⟩) :: t.compiled })
  | .copyCompiled a source name fiber =>
    (s.tables.compiled.lookup source).bind fun c =>
      if c.algebra = a then
        let c := { c with fiber := (s.fiber? fiber).getD c.fiber }
        some (.done, s.updateTables fun t => { t with compiled := (name, c) :: t.compiled })
      else none
  | .compiledFiber compiled name =>
    (s.tables.compiled.lookup compiled).map fun c =>
      (.done, s.updateTables fun t => { t with fibers := (name, c.fiber) :: t.fibers })
  | .execute on effect =>
    (s.resource? on).bind fun ⟨a, r⟩ =>
    (s.buildEffect a effect).bind fun (e, s) => s.complete (.effect r e)
  | .startEffect on effect name =>
    (s.resource? on).bind fun ⟨a, r⟩ =>
    (s.buildEffect a effect).map fun (e, s) => (.done, s.addTask name (.effect r e))
  | .cancel fiber =>
    some (.done, { s with scene.fibers := s.scene.fibers.cancel (s.tables.fiber fiber) })
  | .fork fiber name =>
    let (f, fibers) := s.scene.fibers.fork (s.tables.fiber fiber)
    some (.done, { s with scene.fibers := fibers }.updateTables fun t =>
      { t with fibers := (name, f) :: t.fibers })
  | .cloneFiber fiber name =>
    some (.done, s.updateTables fun t => { t with fibers := (name, t.fiber fiber) :: t.fibers })
  | .fiber fiber =>
    let f := s.tables.fiber fiber
    some (.fiber (s.scene.fibers.isRequested f) (s.scene.fibers.isMasked f), s)
  | .invoke on op args =>
    (s.resource? on).bind fun r =>
    (s.host moment).bind fun (m, s) =>
    (Expr.evalAll s.setup.names [] args m.labels).map fun (args, _) =>
      let (e, s) := s.hostEnding (invokeNamed r op args)
      (.ended e, s)
  | .inspect handle oid =>
    (s.resource? handle).bind fun r =>
    (inspect s.scene.world.bench oid r).map fun reply => (reply, s)
  | .fault target op failure =>
    (s.host (evaluateFailure s.setup.names [] failure)).bind fun (f, s) =>
    (s.setup.names.probe? s.scene.world.bench target).map fun probe =>
      (.done, { s with scene.world := s.scene.world.updateBench (·.failNext probe op f) })
  | .hit target op detail =>
    (s.setup.names.probe? s.scene.world.bench target).map fun probe =>
      let (fault, bench) := s.scene.world.bench.hit probe op detail
      let reply :=
        match fault with
        | some f => .ended (.outcome (.errored f))
        | none => .done
      (reply, { s with scene.world.bench := bench })
  | .notify target channel payload =>
    (s.setup.names.connection? target).map fun r =>
      (.done, { s with scene.world := s.scene.world.updateBench (·.notify r channel payload) })
  | .journal name query => some (s.askJournal name query)
  | .embedded on program =>
    (s.resource? on).bind fun ⟨a, r⟩ =>
    (s.buildProgram a program).map fun (p, s) =>
      (.embedded a.name p.erasedText (p.embeddedText r), s)

/-- Take a step and answer it.  There is no answer to a step that asks for something that cannot be
done. -/
def step (s : Session) (t : Step) : Option (Answer × Session) :=
  ({ s with scene.events := [] }.perform t.command).bind fun (reply, s) =>
    if s.scene.world.refused then none
    else
      let entries := (s.scene.world.bench.journal World.mainJournal).entries
      let seen := min s.reported entries.length
      some
        ({ reply
           journal := entries.drop seen
           fiber := t.fiber.map fun name => s.scene.fibers.structured (s.tables.fiber name)
           events := s.scene.events.reverse },
         { s with reported := entries.length })

/-- Take all steps of a scenario: the answers, and the counters at the end. -/
def steps (s : Session) : List Step → Option (List Answer × List (String × Nat))
  | [] => some ([], s.scene.world.counters.toList)
  | t :: rest =>
    (s.step t).bind fun (answer, s) =>
    (s.steps rest).map fun (answers, counters) => (answer :: answers, counters)

end Session
end Scenario
end Cancelable
