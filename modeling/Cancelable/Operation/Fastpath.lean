import Cancelable.Algebra
import Cancelable.Bytes

/-!
# Operations on the function channel

Functions of the database are called directly, by the identifier under which they are known or by
a name registered for it.
-/

namespace Cancelable
namespace Fastpath

/-- An argument of a function call. -/
inductive Arg where
  | int (n : Int)
  | long (n : Int)
  | bytes (bytes : Bytes)
  | text (text : String)
  deriving DecidableEq, Repr

def Arg.structured : Arg → String
  | int n => Text.tuple "Int" [toString n]
  | long n => Text.tuple "Long" [toString n]
  | bytes b => Text.tuple "Bytes" [b.structured]
  | text s => Text.tuple "Text" [Text.quoted s]

/-- An operation on the channel. -/
inductive Op where
  | addFunction (name : String) (oid : Int)
  | functionId (name : String)
  | call (fnid : Int) (args : List Arg)
  | getInteger (name : String) (args : List Arg)
  | getLong (name : String) (args : List Arg)
  | getOid (name : String) (args : List Arg)
  | getData (name : String) (args : List Arg)
  deriving DecidableEq, Repr

namespace Op

abbrev Answer (_ : Algebra → Type) : Op → Type
  | addFunction .. => Unit
  | functionId _ => Int
  | call .. => Option Bytes
  | getInteger .. => Int
  | getLong .. => Int
  | getOid .. => Int
  | getData .. => Option Bytes

def name : Op → String
  | addFunction .. => "add_function"
  | functionId _ => "function_id"
  | call .. => "fastpath"
  | getInteger .. => "get_integer"
  | getLong .. => "get_long"
  | getOid .. => "get_oid"
  | getData .. => "get_data"

def detail : Op → String
  | addFunction name oid => name ++ " " ++ toString oid
  | functionId name => name
  | call fnid _ => toString fnid
  | getInteger name _ => name
  | getLong name _ => name
  | getOid name _ => name
  | getData name _ => name

def argsText (args : List Arg) : String :=
  Text.list (args.map Arg.structured)

def structured : Op → String
  | addFunction name oid => Text.tuple "AddFunction" [Text.quoted name, toString oid]
  | functionId name => Text.tuple "FunctionId" [Text.quoted name]
  | call fnid args => Text.tuple "Fastpath" [toString fnid, argsText args]
  | getInteger name args => Text.tuple "GetInteger" [Text.quoted name, argsText args]
  | getLong name args => Text.tuple "GetLong" [Text.quoted name, argsText args]
  | getOid name args => Text.tuple "GetOid" [Text.quoted name, argsText args]
  | getData name args => Text.tuple "GetData" [Text.quoted name, argsText args]

end Op
end Fastpath
end Cancelable
