import Cancelable.Algebra
import Cancelable.Text.Record

/-!
# Operations on a connection

A connection gives access to the resources that belong to it, hands out notifications, quotes text
for statements, and tells and sets parameters of the session.
-/

namespace Cancelable
namespace Connection

/-- A message from another session. -/
structure Notification where
  channel : String
  payload : String
  pid : Int
  deriving DecidableEq, Repr

/-- An operation on a connection. -/
inductive Op where
  | backendPid
  | copyApi
  | fastpathApi
  | largeObjectApi
  | notifications
  | escapeIdentifier (identifier : String)
  | escapeLiteral (literal : String)
  | parameterStatus (name : String)
  | prepareThreshold
  | setPrepareThreshold (threshold : Int)
  | cancelQuery
  deriving DecidableEq, Repr

namespace Op

abbrev Answer (H : Algebra → Type) : Op → Type
  | backendPid => Int
  | copyApi => H .copyManager
  | fastpathApi => H .fastpath
  | largeObjectApi => H .directory
  | notifications => List Notification
  | escapeIdentifier _ => String
  | escapeLiteral _ => String
  | parameterStatus _ => Option String
  | prepareThreshold => Int
  | setPrepareThreshold _ => Unit
  | cancelQuery => Unit

def name : Op → String
  | backendPid => "backend_pid"
  | copyApi => "copy_api"
  | fastpathApi => "fastpath_api"
  | largeObjectApi => "large_object_api"
  | notifications => "notifications"
  | escapeIdentifier _ => "escape_identifier"
  | escapeLiteral _ => "escape_literal"
  | parameterStatus _ => "parameter_status"
  | prepareThreshold => "prepare_threshold"
  | setPrepareThreshold _ => "set_prepare_threshold"
  | cancelQuery => "cancel_query"

def detail : Op → String
  | escapeIdentifier identifier => identifier
  | escapeLiteral literal => literal
  | parameterStatus name => name
  | setPrepareThreshold threshold => toString threshold
  | _ => ""

def structured : Op → String
  | backendPid => "BackendPid"
  | copyApi => "CopyApi"
  | fastpathApi => "FastpathApi"
  | largeObjectApi => "LargeObjectApi"
  | notifications => "Notifications"
  | escapeIdentifier identifier => Text.tuple "EscapeIdentifier" [Text.quoted identifier]
  | escapeLiteral literal => Text.tuple "EscapeLiteral" [Text.quoted literal]
  | parameterStatus name => Text.tuple "ParameterStatus" [Text.quoted name]
  | prepareThreshold => "PrepareThreshold"
  | setPrepareThreshold threshold => Text.tuple "SetPrepareThreshold" [toString threshold]
  | cancelQuery => "CancelQuery"

end Op
end Connection
end Cancelable
