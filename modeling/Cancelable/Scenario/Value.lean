import Cancelable.Fiber
import Cancelable.Outcome
import Cancelable.Simulation.Bench
import Cancelable.Width

/-!
# Values of scenarios

Scenarios are written without types, so their programs end with values of one type that holds
whatever an operation may yield.
-/

namespace Cancelable
namespace Scenario

open Simulation

/-- A value of a scenario. -/
inductive Value where
  | unit
  | bool (b : Bool)
  | int (n : Int)
  | text (s : String)
  | bytes (b : Bytes)
  | list (items : List Value)
  | none
  | some (v : Value)
  | ok (v : Value)
  | err (failure : Failure)
  | failure (failure : Failure)
  | interrupted (why : Interrupted)
  | notification (n : Connection.Notification)
  | handle (a : Algebra) (r : Ref a)
  | token (t : Token)

namespace Value

/-! ## Equality -/

mutual

/-- Values are the same when they have the same shape and equal parts; failures are compared by
identity, and so are handles. -/
def same : Value → Value → Bool
  | unit, unit => true
  | bool b, bool c => b == c
  | int m, int n => m == n
  | text s, text t => s == t
  | bytes b, bytes c => b == c
  | list l, list m => sameList l m
  | none, none => true
  | some v, some w => same v w
  | ok v, ok w => same v w
  | err f, err g => f.same g
  | failure f, failure g => f.same g
  | interrupted i, interrupted j => i.same j
  | notification m, notification n => m == n
  | handle a r, handle b s => a == b && r.index == s.index
  | token t, token u => t == u
  | _, _ => false

/-- Lists are the same when they have the same length and the same items. -/
def sameList : List Value → List Value → Bool
  | [], [] => true
  | v :: l, w :: m => same v w && sameList l m
  | _, _ => false

end

/-! ## Answers of operations -/

def ofOption {α : Type} (f : α → Value) : Option α → Value
  | .none => none
  | .some x => some (f x)

def ofAnswer : {a : Algebra} → (o : Op a) → Op.Answer Ref o → Value
  | .connection, .backendPid, n => int n
  | .connection, .copyApi, r => handle .copyManager r
  | .connection, .fastpathApi, r => handle .fastpath r
  | .connection, .largeObjectApi, r => handle .directory r
  | .connection, .notifications, l => list (l.map notification)
  | .connection, .escapeIdentifier _, s => text s
  | .connection, .escapeLiteral _, s => text s
  | .connection, .parameterStatus _, s => ofOption text s
  | .connection, .prepareThreshold, n => int n
  | .connection, .setPrepareThreshold _, _ => unit
  | .connection, .cancelQuery, _ => unit
  | .copyIn, .writeRow _, _ => unit
  | .copyIn, .flush, _ => unit
  | .copyIn, .finish, n => int n
  | .copyIn, .cancel, _ => unit
  | .copyIn, .fieldCount, n => int n
  | .copyIn, .fieldFormat _, n => int n
  | .copyIn, .format, n => int n
  | .copyIn, .handledRowCount, n => int n
  | .copyIn, .isActive, b => bool b
  | .copyOut, .readRow, row => ofOption bytes row
  | .copyOut, .cancel, _ => unit
  | .copyOut, .fieldCount, n => int n
  | .copyOut, .fieldFormat _, n => int n
  | .copyOut, .format, n => int n
  | .copyOut, .handledRowCount, n => int n
  | .copyOut, .isActive, b => bool b
  | .copyManager, .copyIn _, r => handle .copyIn r
  | .copyManager, .copyOut _, r => handle .copyOut r
  | .copyManager, .copyInBytes .., n => int n
  | .copyManager, .copyOutBytes _, b => bytes b
  | .fastpath, .addFunction .., _ => unit
  | .fastpath, .functionId _, n => int n
  | .fastpath, .call .., b => ofOption bytes b
  | .fastpath, .getInteger .., n => int n
  | .fastpath, .getLong .., n => int n
  | .fastpath, .getOid .., n => int n
  | .fastpath, .getData .., b => ofOption bytes b
  | .largeObject, .oid, n => int n
  | .largeObject, .read _, b => bytes b
  | .largeObject, .write _, _ => unit
  | .largeObject, .seek .., _ => unit
  | .largeObject, .tell, n => int n
  | .largeObject, .size, n => int n
  | .largeObject, .truncate _, _ => unit
  | .largeObject, .copy, r => handle .largeObject r
  | .largeObject, .close, _ => unit
  | .directory, .create _, n => int n
  | .directory, .openObject .., r => handle .largeObject r
  | .directory, .unlink _, _ => unit

end Value

/-! ## Operations by name -/

def Value.within? (w : Width) : Value → Option Int
  | .int n => if w.holds n then .some n else .none
  | _ => .none

def Value.whence? : Value → Option LargeObject.Whence
  | .text s => LargeObject.Whence.all.find? fun w => w.name = s
  | _ => .none

def Value.access? : Value → Option Directory.Access
  | .text "Default" => .some default
  | .text s => Directory.Access.all.find? fun m => m.name = s
  | _ => .none

/-- An argument of a function call: its kind and its value. -/
def Value.arg? : Value → Option Fastpath.Arg
  | .list [.text "int", v] => (v.within? .int32).map .int
  | .list [.text "long", v] => (v.within? .int64).map .long
  | .list [.text "bytes", .bytes b] => .some (.bytes b)
  | .list [.text "text", .text s] => .some (.text s)
  | _ => .none

def Value.args? : Value → Option (List Fastpath.Arg)
  | .list items => items.mapM Value.arg?
  | _ => .none

def operation? : (a : Algebra) → String → List Value → Option (Op a)
  | .connection, "backend_pid", [] => .some Connection.Op.backendPid
  | .connection, "copy_api", [] => .some Connection.Op.copyApi
  | .connection, "fastpath_api", [] => .some Connection.Op.fastpathApi
  | .connection, "large_object_api", [] => .some Connection.Op.largeObjectApi
  | .connection, "notifications", [] => .some Connection.Op.notifications
  | .connection, "escape_identifier", [.text s] => .some (Connection.Op.escapeIdentifier s)
  | .connection, "escape_literal", [.text s] => .some (Connection.Op.escapeLiteral s)
  | .connection, "parameter_status", [.text s] => .some (Connection.Op.parameterStatus s)
  | .connection, "prepare_threshold", [] => .some Connection.Op.prepareThreshold
  | .connection, "set_prepare_threshold", [n] =>
    (n.within? .int32).map Connection.Op.setPrepareThreshold
  | .connection, "cancel_query", [] => .some Connection.Op.cancelQuery
  | .copyIn, "write_to_copy", [.bytes b] => .some (CopyIn.Op.writeRow b)
  | .copyIn, "flush_copy", [] => .some CopyIn.Op.flush
  | .copyIn, "end_copy", [] => .some CopyIn.Op.finish
  | .copyIn, "cancel_copy", [] => .some CopyIn.Op.cancel
  | .copyIn, "field_count", [] => .some CopyIn.Op.fieldCount
  | .copyIn, "field_format", [n] => (n.within? .int32).map CopyIn.Op.fieldFormat
  | .copyIn, "format", [] => .some CopyIn.Op.format
  | .copyIn, "handled_row_count", [] => .some CopyIn.Op.handledRowCount
  | .copyIn, "is_active", [] => .some CopyIn.Op.isActive
  | .copyOut, "read_from_copy", [] => .some CopyOut.Op.readRow
  | .copyOut, "cancel_copy", [] => .some CopyOut.Op.cancel
  | .copyOut, "field_count", [] => .some CopyOut.Op.fieldCount
  | .copyOut, "field_format", [n] => (n.within? .int32).map CopyOut.Op.fieldFormat
  | .copyOut, "format", [] => .some CopyOut.Op.format
  | .copyOut, "handled_row_count", [] => .some CopyOut.Op.handledRowCount
  | .copyOut, "is_active", [] => .some CopyOut.Op.isActive
  | .copyManager, "copy_in", [.text s] => .some (CopyManager.Op.copyIn s)
  | .copyManager, "copy_out", [.text s] => .some (CopyManager.Op.copyOut s)
  | .copyManager, "copy_in_bytes", [.text s, .bytes b] => .some (CopyManager.Op.copyInBytes s b)
  | .copyManager, "copy_out_bytes", [.text s] => .some (CopyManager.Op.copyOutBytes s)
  | .fastpath, "add_function", [.text s, n] =>
    (n.within? .int32).map (Fastpath.Op.addFunction s)
  | .fastpath, "function_id", [.text s] => .some (Fastpath.Op.functionId s)
  | .fastpath, "fastpath", [n, args] => do
    .some (Fastpath.Op.call (← n.within? .int32) (← args.args?))
  | .fastpath, "get_integer", [.text s, args] => args.args?.map (Fastpath.Op.getInteger s)
  | .fastpath, "get_long", [.text s, args] => args.args?.map (Fastpath.Op.getLong s)
  | .fastpath, "get_oid", [.text s, args] => args.args?.map (Fastpath.Op.getOid s)
  | .fastpath, "get_data", [.text s, args] => args.args?.map (Fastpath.Op.getData s)
  | .largeObject, "oid", [] => .some LargeObject.Op.oid
  | .largeObject, "read", [n] =>
    (n.within? .length).map fun n => LargeObject.Op.read n.toNat
  | .largeObject, "write", [.bytes b] => .some (LargeObject.Op.write b)
  | .largeObject, "seek", [n, whence] => do
    .some (LargeObject.Op.seek (← n.within? .int64) (← whence.whence?))
  | .largeObject, "tell", [] => .some LargeObject.Op.tell
  | .largeObject, "size", [] => .some LargeObject.Op.size
  | .largeObject, "truncate", [n] => (n.within? .int64).map LargeObject.Op.truncate
  | .largeObject, "copy", [] => .some LargeObject.Op.copy
  | .largeObject, "close", [] => .some LargeObject.Op.close
  | .directory, "create", [mode] => mode.access?.map Directory.Op.create
  | .directory, "open", [n, mode] => do
    .some (Directory.Op.openObject (← n.within? .int64) (← mode.access?))
  | .directory, "unlink", [n] => (n.within? .int64).map Directory.Op.unlink
  | _, _, _ => .none

end Scenario
end Cancelable
