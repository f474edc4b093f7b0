import Cancelable.Scenario.Value

/-!
# Expressions

Expressions compute values from literals, variables and the names a scenario declares.  They have
no effects, except that some make failures: an expression that makes a failure makes another one
each time it is evaluated, which the labels passed through the evaluation ensure.
-/

namespace Cancelable
namespace Scenario

open Simulation

/-! ## Declared names -/

/-- A resource of any algebra. -/
structure Resource where
  algebra : Algebra
  ref : Ref algebra

/-- What a scenario declares. -/
structure Names where
  failures : List (String × Failure) := []
  handles : List (String × Resource) := []

/-! ## Labels for new failures -/

/-- The labels that are left for failures made at one moment. -/
structure Labels where
  instant : Nat
  path : List Nat := []
  taken : Nat := 0

namespace Labels

def take (l : Labels) : Label × Labels :=
  (⟨l.instant, l.taken :: l.path⟩, { l with taken := l.taken + 1 })

/-- Labels for a place of its own, and those left here. -/
def branch (l : Labels) : Labels × Labels :=
  ({ instant := l.instant, path := l.taken :: l.path }, { l with taken := l.taken + 1 })

end Labels

/-! ## Operators -/

/-- An operator with one operand. -/
inductive Unary where
  | utf8
  | some
  | not
  | length
  | display
  | isSome
  | isOk
  | content
  | isCanceled

/-- An operator with two operands. -/
inductive Binary where
  | add
  | sub
  | mul
  | less
  | item
  | append
  | repeated
  | same

def Unary.apply : Unary → Value → Option Value
  | utf8, .text s => Option.some (.bytes (Bytes.ofText s))
  | some, v => Option.some (.some v)
  | not, .bool b => Option.some (.bool !b)
  | length, .bytes b => Option.some (.int b.size)
  | length, .list l => Option.some (.int l.length)
  | display, .int n => Option.some (.text (toString n))
  | display, .text s => Option.some (.text s)
  | display, .failure f => Option.some (.text f.text)
  | display, .interrupted i => Option.some (.text i.text)
  | isSome, .some _ => Option.some (.bool true)
  | isSome, .none => Option.some (.bool false)
  | isOk, .ok _ => Option.some (.bool true)
  | isOk, .err _ => Option.some (.bool false)
  | content, .some v => Option.some v
  | content, .ok v => Option.some v
  | content, .err f => Option.some (.failure f)
  | isCanceled, .interrupted i => Option.some (.bool i.isCanceled)
  | _, _ => none

def Binary.apply : Binary → Value → Value → Option Value
  | add, .int m, .int n => some (.int (m + n))
  | sub, .int m, .int n => some (.int (m - n))
  | mul, .int m, .int n => some (.int (m * n))
  | less, .int m, .int n => some (.bool (m < n))
  | item, .list l, .int n => if 0 ≤ n then l[n.toNat]? else none
  | append, .text s, .text t => some (.text (s ++ t))
  | append, .bytes b, .bytes c => some (.bytes (b ++ c))
  | append, .list l, .list m => some (.list (l ++ m))
  | repeated, .text s, .int n =>
    if 0 ≤ n then some (.text (String.join (List.replicate n.toNat s))) else none
  | repeated, .bytes b, .int n =>
    if 0 ≤ n then some (.bytes ((List.replicate n.toNat b).foldl (· ++ ·) #[])) else none
  | same, v, w => some (.bool (v.same w))
  | _, _, _ => none

/-! ## Expressions -/

/-- An expression. -/
inductive Expr where
  | lit (v : Value)
  | var (name : String)
  | fail (name : String)
  | handle (name : String)
  | fresh (x : Expr)
  | wrap (x : Expr)
  | cons (x rest : Expr)
  | unary (f : Unary) (x : Expr)
  | binary (f : Binary) (x y : Expr)

/-- Evaluate an expression.  There is no value if a name is unknown or an operand is of the wrong
kind. -/
def Expr.eval (names : Names) (locals : List (String × Value)) :
    Expr → Labels → Option (Value × Labels)
  | lit v, l => return (v, l)
  | var name, l => return (← locals.lookup name, l)
  | fail name, l => return (.failure (← names.failures.lookup name), l)
  | handle name, l => do
    let r ← names.handles.lookup name
    return (.handle r.algebra r.ref, l)
  | fresh x, l => do
    match ← x.eval names locals l with
    | (.text s, l) =>
      let (label, l) := l.take
      return (.failure (.message label s), l)
    | _ => none
  | wrap x, l => do
    match ← x.eval names locals l with
    | (.failure f, l) =>
      let (label, l) := l.take
      return (.failure (.wrapped label f), l)
    | _ => none
  | cons x rest, l => do
    let (v, l) ← x.eval names locals l
    match ← rest.eval names locals l with
    | (.list items, l) => return (.list (v :: items), l)
    | _ => none
  | unary f x, l => do
    let (v, l) ← x.eval names locals l
    return (← f.apply v, l)
  | binary f x y, l => do
    let (v, l) ← x.eval names locals l
    let (w, l) ← y.eval names locals l
    return (← f.apply v w, l)

def Expr.evalAll (names : Names) (locals : List (String × Value)) :
    List Expr → Labels → Option (List Value × Labels)
  | [], l => return ([], l)
  | x :: rest, l => do
    let (v, l) ← x.eval names locals l
    let (vs, l) ← evalAll names locals rest l
    return (v :: vs, l)

end Scenario
end Cancelable
