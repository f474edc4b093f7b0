import Cancelable.Algebra
import Cancelable.Bytes

/-!
# Operations on a stream of rows into a table

Rows are written one by one until the stream is ended, which keeps them, or canceled.
-/

namespace Cancelable
namespace CopyIn

/-- An operation on the stream. -/
inductive Op where
  | writeRow (bytes : Bytes)
  | flush
  | finish
  | cancel
  | fieldCount
  | fieldFormat (field : Int)
  | format
  | handledRowCount
  | isActive
  deriving DecidableEq, Repr

namespace Op

abbrev Answer (_ : Algebra → Type) : Op → Type
  | writeRow _ => Unit
  | flush => Unit
  | finish => Int
  | cancel => Unit
  | fieldCount => Int
  | fieldFormat _ => Int
  | format => Int
  | handledRowCount => Int
  | isActive => Bool

def name : Op → String
  | writeRow _ => "write_to_copy"
  | flush => "flush_copy"
  | finish => "end_copy"
  | cancel => "cancel_copy"
  | fieldCount => "field_count"
  | fieldFormat _ => "field_format"
  | format => "format"
  | handledRowCount => "handled_row_count"
  | isActive => "is_active"

def detail : Op → String
  | writeRow bytes => bytes.text
  | fieldFormat field => toString field
  | _ => ""

def structured : Op → String
  | writeRow bytes => Text.tuple "WriteToCopy" [bytes.structured]
  | flush => "FlushCopy"
  | finish => "EndCopy"
  | cancel => "CancelCopy"
  | fieldCount => "FieldCount"
  | fieldFormat field => Text.tuple "FieldFormat" [toString field]
  | format => "Format"
  | handledRowCount => "HandledRowCount"
  | isActive => "IsActive"

end Op
end CopyIn
end Cancelable
