import Cancelable.Algebra
import Cancelable.Bytes

/-!
# Operations that open row streams

A statement opens a stream into a table or out of one, or moves a whole buffer at once.
-/

namespace Cancelable
namespace CopyManager

/-- An operation that opens a stream or moves a buffer. -/
inductive Op where
  | copyIn (sql : String)
  | copyOut (sql : String)
  | copyInBytes (sql : String) (data : Bytes)
  | copyOutBytes (sql : String)
  deriving DecidableEq, Repr

namespace Op

abbrev Answer (H : Algebra → Type) : Op → Type
  | copyIn _ => H .copyIn
  | copyOut _ => H .copyOut
  | copyInBytes .. => Int
  | copyOutBytes _ => Bytes

def name : Op → String
  | copyIn _ => "copy_in"
  | copyOut _ => "copy_out"
  | copyInBytes .. => "copy_in_bytes"
  | copyOutBytes _ => "copy_out_bytes"

def detail : Op → String
  | copyIn sql => sql
  | copyOut sql => sql
  | copyInBytes sql _ => sql
  | copyOutBytes sql => sql

def structured : Op → String
  | copyIn sql => Text.tuple "CopyIn" [Text.quoted sql]
  | copyOut sql => Text.tuple "CopyOut" [Text.quoted sql]
  | copyInBytes sql data => Text.tuple "CopyInBytes" [Text.quoted sql, data.structured]
  | copyOutBytes sql => Text.tuple "CopyOutBytes" [Text.quoted sql]

end Op
end CopyManager
end Cancelable
