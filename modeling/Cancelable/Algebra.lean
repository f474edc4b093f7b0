/-!
# Algebras

The kinds of database resource a program can be written for.  A program is a program of one
algebra; it reaches a resource of another kind by embedding a program of that kind.
-/

namespace Cancelable

/-- A kind of resource. -/
inductive Algebra where
  | connection
  | copyIn
  | copyOut
  | copyManager
  | fastpath
  | largeObject
  | directory
  deriving DecidableEq, Repr

namespace Algebra

def name : Algebra → String
  | connection => "connection"
  | copyIn => "copy_in"
  | copyOut => "copy_out"
  | copyManager => "copy_manager"
  | fastpath => "fastpath"
  | largeObject => "large_object"
  | directory => "large_object_manager"

def all : List Algebra :=
  [connection, copyIn, copyOut, copyManager, fastpath, largeObject, directory]

def ofName? (s : String) : Option Algebra :=
  all.find? fun a => a.name = s

end Algebra
end Cancelable
