import Cancelable.Algebra
import Cancelable.Bytes

/-!
# Operations on a stream of rows out of a table

Rows are read one by one until there are none left or the stream is canceled.
-/

namespace Cancelable
namespace CopyOut

/-- An operation on the stream. -/
inductive Op where
  | readRow
  | cancel
  | fieldCount
  | fieldFormat (field : Int)
  | format
  | handledRowCount
  | isActive
  deriving DecidableEq, Repr

namespace Op

abbrev Answer (_ : Algebra → Type) : Op → Type
  | readRow => Option Bytes
  | cancel => Unit
  | fieldCount => Int
  | fieldFormat _ => Int
  | format => Int
  | handledRowCount => Int
  | isActive => Bool

def name : Op → String
  | readRow => "read_from_copy"
  | cancel => "cancel_copy"
  | fieldCount => "field_count"
  | fieldFormat _ => "field_format"
  | format => "format"
  | handledRowCount => "handled_row_count"
  | isActive => "is_active"

def detail : Op → String
  | fieldFormat field => toString field
  | _ => ""

def structured : Op → String
  | readRow => "ReadFromCopy"
  | cancel => "CancelCopy"
  | fieldCount => "FieldCount"
  | fieldFormat field => Text.tuple "FieldFormat" [toString field]
  | format => "Format"
  | handledRowCount => "HandledRowCount"
  | isActive => "IsActive"

end Op
end CopyOut
end Cancelable
