import Cancelable.Algebra
import Cancelable.Bytes

/-!
# Operations on an open large object

An open large object is a string of bytes with a position.  Reading and writing start at the
position and move it.
-/

namespace Cancelable
namespace LargeObject

/-- What a new position is counted from. -/
inductive Whence where
  | start
  | current
  | finish
  deriving DecidableEq, Repr

def Whence.name : Whence → String
  | start => "Set"
  | current => "Current"
  | finish => "End"

def Whence.all : List Whence := [start, current, finish]

/-- An operation on an open large object. -/
inductive Op where
  | oid
  | read (len : Nat)
  | write (bytes : Bytes)
  | seek (offset : Int) (whence : Whence)
  | tell
  | size
  | truncate (len : Int)
  | copy
  | close
  deriving DecidableEq, Repr

namespace Op

abbrev Answer (H : Algebra → Type) : Op → Type
  | oid => Int
  | read _ => Bytes
  | write _ => Unit
  | seek .. => Unit
  | tell => Int
  | size => Int
  | truncate _ => Unit
  | copy => H .largeObject
  | close => Unit

def name : Op → String
  | oid => "oid"
  | read _ => "read"
  | write _ => "write"
  | seek .. => "seek"
  | tell => "tell"
  | size => "size"
  | truncate _ => "truncate"
  | copy => "copy"
  | close => "close"

def detail : Op → String
  | read len => toString len
  | write bytes => bytes.text
  | seek offset whence => toString offset ++ " " ++ whence.name
  | truncate len => toString len
  | _ => ""

def structured : Op → String
  | oid => "Oid"
  | read len => Text.tuple "Read" [toString len]
  | write bytes => Text.tuple "Write" [bytes.structured]
  | seek offset whence => Text.tuple "Seek" [toString offset, whence.name]
  | tell => "Tell"
  | size => "Size"
  | truncate len => Text.tuple "Truncate" [toString len]
  | copy => "Copy"
  | close => "Close"

end Op
end LargeObject
end Cancelable
