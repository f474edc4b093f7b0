import Cancelable.Scenario.Build

/-!
# Settings

What a scenario declares before its first step: failures and resources.
-/

namespace Cancelable
namespace Scenario

open Simulation

/-! ## Failures -/

/-- How a failure is declared. -/
inductive FailureSpec where
  | message (text : String)
  | system (kind : SystemError) (text : String)
  | wrap (name : String)
  | interrupted (name : String)
  | canceled
  | clone (name : String)

/-- The failure of a declaration, where `l` is the label of a new one. -/
def FailureSpec.failure? (declared : List (String × Failure)) (l : Label) :
    FailureSpec → Option Failure
  | message text => some (.message l text)
  | system kind text => some (.system l kind text)
  | wrap name => (declared.lookup name).map (.wrapped l)
  | interrupted name => (declared.lookup name).map (.interruption l)
  | canceled => some (.cancellation l)
  | clone name => declared.lookup name

/-- Declare failures in order.  A name that is declared again stands for the later failure only. -/
def declareFailures : List (String × FailureSpec) → Labels → List (String × Failure) →
    Option (List (String × Failure))
  | [], _, declared => some declared
  | (name, spec) :: rest, l, declared => do
    let (label, l) := l.take
    let f ← spec.failure? declared label
    declareFailures rest l ((declared.filter fun entry => entry.1 != name) ++ [(name, f)])

/-- The names of the declared failures that are the same as `f`, in alphabetical order. -/
def Names.namesOf (names : Names) (f : Failure) : List String :=
  ((names.failures.filter fun entry => entry.2.same f).map Prod.fst).mergeSort fun s t => s ≤ t

def Names.nameOf? (names : Names) (f : Failure) : Option String :=
  (names.namesOf f).head?

/-! ## Resources -/

/-- How a resource is declared. -/
inductive ResourceSpec where
  | largeObject (oid : Int)
  | directory
  | copyIn (fields : Int)
  | copyOut (fields : Int) (rows : List Bytes)
  | copyManager (table : List Bytes)
  | fastpath
  | connection (pid : Int)

/-- Put a declared resource on the bench, where it writes to the journal of a name. -/
def ResourceSpec.place (journal : String) : ResourceSpec → Bench → Resource × Bench
  | largeObject oid, b =>
    let (probe, b) := b.newProbe journal
    let (contents, b) := b.newContents
    let (r, b) := b.newLargeObject probe oid contents
    (⟨_, r⟩, b)
  | directory, b =>
    let (r, b) := b.newDirectory journal
    (⟨_, r⟩, b)
  | copyIn fields, b =>
    let (r, b) := b.newCopyIn journal fields
    (⟨_, r⟩, b)
  | copyOut fields rows, b =>
    let (r, b) := b.newCopyOut journal fields rows
    (⟨_, r⟩, b)
  | copyManager table, b =>
    let (r, b) := b.newCopyManager journal table
    (⟨_, r⟩, b)
  | fastpath, b =>
    let (r, b) := b.newFastpath journal
    (⟨_, r⟩, b)
  | connection pid, b =>
    let (r, b) := b.newConnection journal pid
    (⟨_, r⟩, b)

/-- A declared resource: its name, its journal, and what it is. -/
structure ResourceDeclaration where
  name : String
  journal : String
  spec : ResourceSpec

def placeAll : List ResourceDeclaration → Bench → List (String × Resource) × Bench
  | [], b => ([], b)
  | d :: rest, b =>
    let (r, b) := d.spec.place d.journal b
    let (others, b) := placeAll rest b
    ((d.name, r) :: others, b)

end Scenario
end Cancelable
