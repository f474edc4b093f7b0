import Cancelable.Effect
import Cancelable.Program.ReadAll
import Cancelable.Scenario.Action

/-!
# Building programs and effects

What scripts stand for.  Operands of a node are built together with the node; what a closure makes
is built anew each time the closure is called, at a moment of its own.  The body of a definition
and a program kept by name are procedures, so scripts may be recursive.
-/

namespace Cancelable
namespace Scenario

open Simulation

/-! ## Scopes -/

/-- What a script may refer to. -/
structure Scope where
  locals : List (String × Value) := []
  tables : Tables := {}

def Scope.push (s : Scope) (var : String) (v : Value) : Scope :=
  { s with locals := (var, v) :: s.locals }

def Scope.later (s : Scope) (m : Moment) (var : String) (v : Value) : Scope :=
  { locals := (var, v) :: s.locals, tables := m.tables }

/-- What scripts refer to that does not change: the declared names and the definitions. -/
structure Setup where
  names : Names := {}
  definitions : List (String × Definition) := []

/-- The procedures of scenarios: a script with all it refers to. -/
inductive Script : Procedures where
  | mk {a : Algebra} (code : Code) (scope : Scope) (labels : Labels) : Script a Value

/-- The programs of scenarios. -/
abbrev Prog (a : Algebra) : Type 1 :=
  Program backend (Routine Script) a Value

/-- The effects of scenarios. -/
abbrev Eff (a : Algebra) : Type 1 :=
  Effect backend (Routine Script) a Value

/-! ## Programs -/

/-- The program of a closure that asks for something that cannot be done. -/
def refused {a : Algebra} : Prog a :=
  .build refuse fun x : Empty => nomatch x

def made {a : Algebra} (k : Moment → Option (Prog a × Labels)) : Prog a :=
  .build moment fun m =>
    match k m with
    | some (p, _) => p
    | none => refused

/-- The procedure that builds a program again which was built before. -/
def Built.script (b : Built) (a : Algebra) : Option (Prog a) :=
  match b with
  | .mk algebra code labels known =>
    if algebra = a then
      some (.call (.custom (.mk code { tables := { programs := known } } labels)))
    else none

def operation (a : Algebra) (name : String) (args : List Value) : Option (Prog a) :=
  match a, name, args with
  | .copyOut, "read_all", [] =>
    some (CopyOut.readAll.mapPure fun rows => .list (rows.map .bytes))
  | a, name, args =>
    (operation? a name args).map fun o => (Program.op o).mapPure (Value.ofAnswer o)

def Value.ofAttempt : Except Failure Value → Value
  | .ok v => .ok v
  | .error f => .err f

/-- Build a program, with the labels that are left.  There is none if the script asks for
something that cannot be done. -/
def Code.build (setup : Setup) : (a : Algebra) → Code → Scope → Labels →
    Option (Prog a × Labels)
  | _, pure x, s, l =>
    (x.eval setup.names s.locals l).map fun (v, l) => (.pure v, l)
  | a, op name args, s, l =>
    (Expr.evalAll setup.names s.locals args l).bind fun (args, l) =>
    (operation a name args).map fun p => (p, l)
  | _, delay action, s, l => some (.delay (action.runTotal setup.names s.locals), l)
  | _, raw action, s, l =>
    some (.raw fun handle => action.run setup.names (some ⟨_, handle⟩) s.locals, l)
  | _, suspend hint action, s, l =>
    some (.suspend hint (action.run setup.names none s.locals), l)
  | _, raise x, s, l =>
    (x.eval setup.names s.locals l).bind fun
      | (.failure f, l) => some (.raise f, l)
      | _ => none
  | _, canceled, _, l => some (.mapPure .canceled fun _ => .unit, l)
  | _, monotonic, _, l =>
    some (.map .monotonic fun n => Host.update fun w =>
      (.bool (w.latestReading ≤ n), { w with latestReading := n }), l)
  | _, realtime, _, l => some (.mapPure .realtime fun n => .bool (startOf2020 < n), l)
  | _, embed handle p, s, l =>
    (handle.eval setup.names s.locals l).bind fun
      | (.handle b r, l) => (p.build setup b s l).map fun (p, l) => (.embed r p, l)
      | _ => none
  | a, map p var x, s, l =>
    (p.build setup a s l).map fun (p, l) =>
      (.map p fun v => evaluate setup.names ((var, v) :: s.locals) x, l)
  | a, mapDo p var action, s, l =>
    (p.build setup a s l).map fun (p, l) =>
      (.map p fun v => action.runTotal setup.names ((var, v) :: s.locals), l)
  | a, bind p var q, s, l =>
    (p.build setup a s l).map fun (p, l) =>
      (.bind p fun v => made fun m => q.build setup a (s.later m var v) m.labels, l)
  | a, andThen p q, s, l =>
    (p.build setup a s l).bind fun (p, l) =>
    (q.build setup a s l).map fun (q, l) => (p.andThen q, l)
  | a, void p, s, l =>
    (p.build setup a s l).map fun (p, l) => (.mapPure p fun _ => .unit, l)
  | a, handleError p var q, s, l =>
    (p.build setup a s l).map fun (p, l) =>
      (.handleError p fun f => made fun m =>
        q.build setup a (s.later m var (.failure f)) m.labels, l)
  | a, attempt p, s, l =>
    (p.build setup a s l).map fun (p, l) => (p.attempt.mapPure Value.ofAttempt, l)
  | a, forceR p q, s, l =>
    (p.build setup a s l).bind fun (p, l) =>
    (q.build setup a s l).map fun (q, l) => (.forceR p q, l)
  | a, onCancel p finalizer, s, l =>
    (p.build setup a s l).bind fun (p, l) =>
    (finalizer.build setup a s l).map fun (finalizer, l) => (.onCancel p finalizer.void, l)
  | a, uncancelable var p, s, l =>
    some (.uncancelable fun t => made fun m =>
      p.build setup a (s.later m var (.token t)) m.labels, l)
  | a, poll token p, s, l =>
    (token.eval setup.names s.locals l).bind fun
      | (.token t, l) => (p.build setup a s l).map fun (p, l) => (.poll t p, l)
      | _ => none
  | a, letIn var x p, s, l =>
    (x.eval setup.names s.locals l).bind fun (v, l) => p.build setup a (s.push var v) l
  | a, cond x p q, s, l =>
    (x.eval setup.names s.locals l).bind fun
      | (.bool true, l) => p.build setup a s l
      | (.bool false, l) => q.build setup a s l
      | _ => none
  | _, call name args, s, l =>
    (setup.definitions.lookup name).bind fun d =>
    (Expr.evalAll setup.names s.locals args l).bind fun (args, l) =>
      if args.length = d.params.length then
        let (inner, l) := l.branch
        -- of two parameters of one name the later one counts, as for nested bindings
        let s := { s with locals := (d.params.zip args).reverse }
        some (.call (.custom (.mk d.body s inner)), l)
      else none
  | a, program name, s, l =>
    (s.tables.programs.lookup name).bind fun b => (b.script a).map fun p => (p, l)

def bodies (setup : Setup) : Bodies backend (Routine Script) :=
  Routine.body fun
    | .mk code scope labels =>
      match code.build setup _ scope labels with
      | some (p, _) => p
      | none => refused

/-! ## Effects -/

def madeEffect {a : Algebra} (k : Moment → Option (Eff a × Labels)) : Eff a :=
  .build moment fun m =>
    match k m with
    | some (e, _) => e
    | none => .build refuse fun x : Empty => nomatch x

def EffectCode.build (setup : Setup) (a : Algebra) : EffectCode → Scope → Labels →
    Option (Eff a × Labels)
  | kleisli name, s, l =>
    (s.tables.compiled.lookup name).bind fun c =>
    (c.program.script a).map fun p => (.kleisli ⟨p, c.fiber⟩, l)
  | compile p, s, l => (p.build setup a s l).map fun (p, l) => (.compile p, l)
  | compileIn fiber p, s, l =>
    (p.build setup a s l).map fun (p, l) => (.kleisli ⟨p, s.tables.fiber fiber⟩, l)
  | pure x, s, l =>
    (x.eval setup.names s.locals l).map fun (v, l) => (.pure v, l)
  | map e var x, s, l =>
    (e.build setup a s l).map fun (e, l) =>
      (.map e fun v => evaluate setup.names ((var, v) :: s.locals) x, l)
  | andThen e var next, s, l =>
    (e.build setup a s l).map fun (e, l) =>
      (.andThen e fun v => madeEffect fun m =>
        next.build setup a (s.later m var v) m.labels, l)
  | orElse e var next, s, l =>
    (e.build setup a s l).map fun (e, l) =>
      (.orElse e fun i => madeEffect fun m =>
        next.build setup a (s.later m var (.interrupted i)) m.labels, l)

end Scenario
end Cancelable
