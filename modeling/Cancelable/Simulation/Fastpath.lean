import Cancelable.Simulation.Work

/-!
# Simulated function channels

Every function of a simulated channel does the same: called for a number it adds up its integer
arguments, called for data it joins its byte and text arguments.
-/

namespace Cancelable
namespace Simulation
namespace Fastpath

/-! ## Functions -/

def Arg.number : Fastpath.Arg → Int
  | .int n => n
  | .long n => n
  | .bytes _ => 0
  | .text _ => 0

def Arg.data : Fastpath.Arg → Bytes
  | .int _ => #[]
  | .long _ => #[]
  | .bytes b => b
  | .text s => Bytes.ofText s

/-- The sum of the arguments, added from the left to `total` within the integers of 64 bits. -/
def sumFrom (total : Int) : List Fastpath.Arg → Except Stop Int
  | [] => .ok total
  | arg :: rest => do sumFrom (← Work.sum total (Arg.number arg)) rest

def join (args : List Fastpath.Arg) : Option Bytes :=
  let data := args.foldl (fun data arg => data ++ Arg.data arg) #[]
  if data.isEmpty then none else some data

/-! ## Operations -/

variable {m : Type → Type} [Monad m] [MonadStateOf Bench m] [MonadLiftT (Except Stop) m]

def lookup (r : Ref .fastpath) (name : String) : m Int := do
  match ((← get).fastpaths.get r.index).functions[name]? with
  | some oid => return oid
  | none => Work.reject (.unknownName name)

def isRegistered (c : Fastpath) (fnid : Int) : Bool :=
  c.functions.values.contains fnid

def register (r : Ref .fastpath) (name : String) (oid : Int) : m Unit :=
  modify fun b =>
    let c := b.fastpaths.get r.index
    { b with
      fastpaths := b.fastpaths.set r.index { c with functions := c.functions.insert name oid } }

def act (r : Ref .fastpath) : (o : Fastpath.Op) → m (Fastpath.Op.Answer Ref o)
  | .addFunction name oid => register r name oid
  | .functionId name => lookup r name
  | .call fnid args => do
    Work.require (isRegistered ((← get).fastpaths.get r.index) fnid) (.unknownFunction fnid)
    return join args
  | .getInteger name args => do
    let _ ← lookup r name
    let total ← sumFrom 0 args
    Work.require (Width.int32.holds total) .integerOutOfRange
    return total
  | .getLong name args => do
    let _ ← lookup r name
    sumFrom 0 args
  | .getOid name args => do
    let _ ← lookup r name
    sumFrom 0 args
  | .getData name args => do
    let _ ← lookup r name
    return join args

end Fastpath
end Simulation
end Cancelable
