import Cancelable.Operation.Connection
import Cancelable.Operation.CopyIn
import Cancelable.Operation.CopyManager
import Cancelable.Operation.CopyOut
import Cancelable.Operation.Directory
import Cancelable.Operation.Fastpath
import Cancelable.Operation.LargeObject

/-!
# Operations of an algebra

The operations of all algebras as one family, with what each yields and the texts each is shown
by.
-/

namespace Cancelable

/-- The operations of an algebra. -/
abbrev Op : Algebra → Type
  | .connection => Connection.Op
  | .copyIn => CopyIn.Op
  | .copyOut => CopyOut.Op
  | .copyManager => CopyManager.Op
  | .fastpath => Fastpath.Op
  | .largeObject => LargeObject.Op
  | .directory => Directory.Op

namespace Op

/-- What an operation yields, where `H` are the handles of each algebra. -/
abbrev Answer (H : Algebra → Type) : {a : Algebra} → Op a → Type
  | .connection, o => Connection.Op.Answer H o
  | .copyIn, o => CopyIn.Op.Answer H o
  | .copyOut, o => CopyOut.Op.Answer H o
  | .copyManager, o => CopyManager.Op.Answer H o
  | .fastpath, o => Fastpath.Op.Answer H o
  | .largeObject, o => LargeObject.Op.Answer H o
  | .directory, o => Directory.Op.Answer H o

def name : {a : Algebra} → Op a → String
  | .connection, o => Connection.Op.name o
  | .copyIn, o => CopyIn.Op.name o
  | .copyOut, o => CopyOut.Op.name o
  | .copyManager, o => CopyManager.Op.name o
  | .fastpath, o => Fastpath.Op.name o
  | .largeObject, o => LargeObject.Op.name o
  | .directory, o => Directory.Op.name o

def key {a : Algebra} (o : Op a) : String :=
  a.name ++ "." ++ o.name

def detail : {a : Algebra} → Op a → String
  | .connection, o => Connection.Op.detail o
  | .copyIn, o => CopyIn.Op.detail o
  | .copyOut, o => CopyOut.Op.detail o
  | .copyManager, o => CopyManager.Op.detail o
  | .fastpath, o => Fastpath.Op.detail o
  | .largeObject, o => LargeObject.Op.detail o
  | .directory, o => Directory.Op.detail o

def structured : {a : Algebra} → Op a → String
  | .connection, o => Connection.Op.structured o
  | .copyIn, o => CopyIn.Op.structured o
  | .copyOut, o => CopyOut.Op.structured o
  | .copyManager, o => CopyManager.Op.structured o
  | .fastpath, o => Fastpath.Op.structured o
  | .largeObject, o => LargeObject.Op.structured o
  | .directory, o => Directory.Op.structured o

/-- Operations of one algebra are equal when they have the same name and equal arguments. -/
instance : {a : Algebra} → DecidableEq (Op a)
  | .connection => inferInstanceAs (DecidableEq Connection.Op)
  | .copyIn => inferInstanceAs (DecidableEq CopyIn.Op)
  | .copyOut => inferInstanceAs (DecidableEq CopyOut.Op)
  | .copyManager => inferInstanceAs (DecidableEq CopyManager.Op)
  | .fastpath => inferInstanceAs (DecidableEq Fastpath.Op)
  | .largeObject => inferInstanceAs (DecidableEq LargeObject.Op)
  | .directory => inferInstanceAs (DecidableEq Directory.Op)

end Op
end Cancelable
