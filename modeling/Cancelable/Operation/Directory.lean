import Cancelable.Algebra
import Cancelable.Text.Record

/-!
# Operations on the directory of large objects

The directory creates large objects under identifiers of its own choice, opens them and deletes
them.
-/

namespace Cancelable
namespace Directory

/-- What an object is created or opened for. -/
inductive Access where
  | read
  | write
  | readWrite
  deriving DecidableEq, Repr

def Access.name : Access → String
  | read => "Read"
  | write => "Write"
  | readWrite => "ReadWrite"

def Access.all : List Access := [read, write, readWrite]

instance : Inhabited Access := ⟨.readWrite⟩

/-- An operation on the directory. -/
inductive Op where
  | create (mode : Access)
  | openObject (oid : Int) (mode : Access)
  | unlink (oid : Int)
  deriving DecidableEq, Repr

namespace Op

abbrev Answer (H : Algebra → Type) : Op → Type
  | create _ => Int
  | openObject .. => H .largeObject
  | unlink _ => Unit

def name : Op → String
  | create _ => "create"
  | openObject .. => "open"
  | unlink _ => "unlink"

def detail : Op → String
  | create mode => mode.name
  | openObject oid mode => toString oid ++ " " ++ mode.name
  | unlink oid => toString oid

def structured : Op → String
  | create mode => Text.tuple "Create" [mode.name]
  | openObject oid mode => Text.tuple "Open" [toString oid, mode.name]
  | unlink oid => Text.tuple "Unlink" [toString oid]

end Op
end Directory
end Cancelable
