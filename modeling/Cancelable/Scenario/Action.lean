import Cancelable.Scenario.World

/-!
# Running actions

An action is host code: it may read and change the world, request cancellations, fail and break
off.  Its expressions are evaluated when it runs, each at a moment of its own.
-/

namespace Cancelable
namespace Scenario

open Simulation

def invokeNamed (r : Resource) (op : String) (args : List Value) :
    Host World (Except Failure Value) := do
  let o ← orRefuse (operation? r.algebra op args)
  let result ← perform r.ref o
  return result.map (Value.ofAnswer o)

/-- Run an action.  Operations on the handle itself are possible only where there is one. -/
def Action.run (names : Names) (handle : Option Resource) (locals : List (String × Value)) :
    Action → Host World (Except Failure Value)
  | pass => return .ok .unit
  | seq first second => do
    match ← first.run names handle locals with
    | .ok _ => second.run names handle locals
    | .error f => return .error f
  | value x => do
    return .ok (← evaluate names locals x)
  | tick counter => do
    return .ok (.int (← Host.update fun w => w.tick counter))
  | cancel fiber => do
    Host.cancel ((← Host.world).tables.fiber fiber)
    return .ok .unit
  | fiberText fiber => do
    let f := (← Host.world).tables.fiber fiber
    return .ok (.text ((← Host.fibers).structured f))
  | masked fiber => do
    let f := (← Host.world).tables.fiber fiber
    return .ok (.bool ((← Host.fibers).isMasked f))
  | requested fiber => do
    let f := (← Host.world).tables.fiber fiber
    return .ok (.bool ((← Host.fibers).isRequested f))
  | note x => do
    let s ← evaluateText names locals x
    Host.modify (·.note "note" s)
    return .ok .unit
  | snap fiber => do
    let f := (← Host.world).tables.fiber fiber
    let s := (← Host.fibers).structured f
    Host.modify (·.note "fiber" s)
    return .ok .unit
  | error x => do
    return .error (← evaluateFailure names locals x)
  | panic x => do
    Host.panic (← evaluateText names locals x)
  | failNext target op x => do
    let f ← evaluateFailure names locals x
    let probe ← orRefuse (names.probe? (← Host.world).bench target)
    Host.modify (·.updateBench (·.failNext probe op f))
    return .ok .unit
  | notify target channel payload => do
    let channel ← evaluateText names locals channel
    let payload ← evaluateText names locals payload
    let connection ← orRefuse (names.connection? target)
    Host.modify (·.updateBench (·.notify connection channel payload))
    return .ok .unit
  | invoke op args => do
    let m ← moment
    let (args, _) ← orRefuse (Expr.evalAll names locals args m.labels)
    invokeNamed (← orRefuse handle) op args

def Action.runTotal (names : Names) (locals : List (String × Value)) (action : Action) :
    Host World Value := do
  match ← action.run names none locals with
  | .ok v => return v
  | .error _ => refuse

end Scenario
end Cancelable
