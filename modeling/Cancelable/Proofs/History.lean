import Cancelable.Proofs.Frame

/-!
# Histories

A history is what has happened on a bench: resources were placed, operations performed, failures
scripted, notifications sent, and journals written to or cleared, in any order.  An operation is on
record with its answer, so that what has been written, created or returned so far can be read off
the history, without looking at the bench.  Only what has been given out is used: a number that has
not been given out yet would stand for another resource later, and the record would not tell them
apart.  What depends on neither is said of all reachable benches (`Bench.Reachable`).

Main statements: the benches of histories are reachable (`Bench.Steps.reachable`), and an event
changes only what it concerns (`Bench.Step.kept`).
-/

namespace Cancelable
namespace Simulation

/-! ## Events -/

/-- What happens on a bench. -/
inductive Event where
  /-- A resource is placed. -/
  | placed (journal : String) (spec : Scenario.ResourceSpec) (resource : Scenario.Resource)
  /-- An operation is performed and answered. -/
  | performed {a : Algebra} (r : Ref a) (o : Op a) (answer : Except Stop (Op.Answer Ref o))
  /-- A probe is told to make an operation fail. -/
  | scripted (probe : Nat) (op : String) (failure : Failure)
  /-- A probe is used by itself. -/
  | hit (probe : Nat) (op detail : String) (failure? : Option Failure)
  | notified (r : Ref .connection) (channel payload : String)
  /-- A journal is written to or cleared. -/
  | journaled (name : String) (f : Journal → Journal)

/-- What is read off a record event by event: one more event adds what is read off it. -/
theorem filterMap_snoc {α : Type} (read : Event → Option α) (events : List Event) (e : Event) :
    (events ++ [e]).filterMap read = events.filterMap read ++ (read e).toList := by
  rw [List.filterMap_append, List.filterMap_cons]
  cases read e with
  | none => rfl
  | some x => rfl

namespace Bench

/-- How many resources of an algebra have been given out. -/
def given (b : Bench) : Algebra → Nat
  | .connection => b.connections.size
  | .copyIn => b.copyIns.size
  | .copyOut => b.copyOuts.size
  | .copyManager => b.copyManagers.size
  | .fastpath => b.fastpaths.size
  | .largeObject => b.largeObjects.size
  | .directory => b.directories.size

/-- A resource that has been given out. -/
def Has (b : Bench) {a : Algebra} (r : Ref a) : Prop :=
  r.index < b.given a

/-- An event on a bench, and the bench after it. -/
inductive Step (b : Bench) : Event → Bench → Prop where
  | placed (journal : String) (spec : Scenario.ResourceSpec) :
    Step b (.placed journal spec (spec.place journal b).1) (spec.place journal b).2
  | performed {a : Algebra} {r : Ref a} (has : b.Has r) (o : Op a) :
    Step b (.performed r o (b.perform r o).1) (b.perform r o).2
  | scripted {probe : Nat} (given : probe < b.probes.size) (op : String) (failure : Failure) :
    Step b (.scripted probe op failure) (b.failNext probe op failure)
  | hit {probe : Nat} (given : probe < b.probes.size) (op detail : String) :
    Step b (.hit probe op detail (b.hit probe op detail).1) (b.hit probe op detail).2
  | notified {r : Ref .connection} (has : b.Has r) (channel payload : String) :
    Step b (.notified r channel payload) (b.notify r channel payload)
  | journaled (name : String) (f : Journal → Journal) :
    Step b (.journaled name f) (b.updateJournal name f)

/-- Events one after the other. -/
inductive Steps (b : Bench) : List Event → Bench → Prop where
  | nil : Steps b [] b
  | snoc {events : List Event} {c d : Bench} {e : Event} (before : Steps b events c)
    (step : Step c e d) : Steps b (events ++ [e]) d

variable {b c d : Bench} {events later : List Event} {e : Event}

theorem Step.of_perform {a : Algebra} {r : Ref a} {o : Op a}
    {answer : Except Stop (Op.Answer Ref o)} (has : b.Has r)
    (performed : b.perform r o = (answer, c)) : Step b (.performed r o answer) c := by
  have step := Step.performed has o
  rw [performed] at step
  exact step

/-- What is on record of an operation is what performing it comes to. -/
theorem Step.performed_eq {a : Algebra} {r : Ref a} {o : Op a}
    {answer : Except Stop (Op.Answer Ref o)} (step : Step b (.performed r o answer) c) :
    b.Has r ∧ b.perform r o = (answer, c) := by
  cases step with
  | performed has => exact ⟨has, rfl⟩

theorem Steps.one (step : Step b e c) : Steps b [e] c :=
  .snoc .nil step

theorem Steps.trans (first : Steps b events c) (second : Steps c later d) :
    Steps b (events ++ later) d := by
  induction second with
  | nil => simpa using first
  | snoc _ step ih => simpa [List.append_assoc] using ih.snoc step

/-- What is on record tells the bench afterwards. -/
theorem Step.det (step : Step b e c) (step' : Step b e d) : c = d := by
  cases step with
  | placed | performed | scripted | hit | notified | journaled =>
    cases step'
    rfl

theorem Steps.of_snoc (steps : Steps b (events ++ [e]) d) :
    ∃ c, Steps b events c ∧ Step c e d := by
  generalize eq : events ++ [e] = all at steps
  cases steps with
  | nil => simp at eq
  | @snoc _ c _ _ before step =>
    obtain ⟨rfl, rfl⟩ := List.append_singleton_inj.mp eq
    exact ⟨c, before, step⟩

theorem Steps.det (steps : Steps b events c) (steps' : Steps b events d) : c = d := by
  induction steps generalizing d with
  | nil =>
    generalize eq : ([] : List Event) = none at steps'
    cases steps' with
    | nil => rfl
    | snoc => simp at eq
  | snoc _ step ih =>
    obtain ⟨c', before, step'⟩ := steps'.of_snoc
    obtain rfl := ih before
    exact step.det step'

theorem Step.reachable (reachable : b.Reachable) (step : Step b e c) : c.Reachable := by
  cases step with
  | placed journal spec => exact .placed reachable journal spec
  | performed _ o => exact .performed reachable _ o
  | scripted _ op failure => exact .scripted reachable _ op failure
  | hit _ op detail => exact .hit reachable _ op detail
  | notified _ channel payload => exact .notified reachable _ channel payload
  | journaled name f => exact .journaled reachable name f

theorem Steps.reachable (reachable : b.Reachable) (steps : Steps b events c) : c.Reachable := by
  induction steps with
  | nil => exact reachable
  | snoc _ step ih => exact step.reachable ih

/-- What holds before and is kept by each event holds after all of them. -/
theorem Steps.invariant {I : Bench → Prop} (holds : I b)
    (kept : ∀ ⦃c e d⦄, I c → Step c e d → I d) (steps : Steps b events d) : I d := by
  induction steps with
  | nil => exact holds
  | snoc _ step ih => exact kept ih step

end Bench

/-! ## What an event changes -/

namespace Event

/-- The resource that an event concerns. -/
def concerns : Event → Algebra → Nat → Prop
  | .performed r _ _ => Bench.owns r
  | .notified r _ _ => Bench.owns r
  | _ => fun _ _ => False

/-- The bytes that an event may change. -/
def rewrites (b : Bench) : Event → Nat → Prop
  | .performed r o _ => b.rewrites r o
  | _ => fun _ => False

end Event

namespace Bench

variable {own : Algebra → Nat → Prop} {bytes : Nat → Prop} {b c d : Bench} {e : Event}
  {events : List Event}

theorem kept_place (b : Bench) (journal : String) (spec : Scenario.ResourceSpec) :
    b.Kept own bytes (spec.place journal b).2 := by
  cases spec with
  | largeObject oid =>
    exact (b.kept_newProbe journal).trans <| (kept_newContents _).trans <|
      kept_newLargeObject _ _ _ _
  | directory => exact b.kept_newDirectory journal
  | copyIn fields => exact b.kept_newCopyIn journal fields
  | copyOut fields rows => exact b.kept_newCopyOut journal fields rows
  | copyManager table => exact b.kept_newCopyManager journal table
  | fastpath => exact b.kept_newFastpath journal
  | connection pid => exact b.kept_newConnection journal pid

theorem kept_hit (b : Bench) (probe : Nat) (op detail : String) :
    b.Kept own bytes (b.hit probe op detail).2 := by
  simp only [hit]
  split
  · exact { (Kept.refl b : Kept own bytes b b) with }
  · exact { (Kept.refl b : Kept own bytes b b) with }

/-- An event changes only what it concerns. -/
theorem Step.kept (step : Step b e c) : b.Kept e.concerns (e.rewrites b) c := by
  cases step with
  | placed journal spec => exact b.kept_place journal spec
  | performed has o => exact b.kept_perform _ o
  | scripted _ op failure =>
    exact { (Kept.refl b : Kept _ _ b b) with }
  | hit _ op detail => exact b.kept_hit _ op detail
  | notified has channel payload => exact b.kept_setConnection _ ⟨rfl, rfl⟩
  | journaled name f => exact { (Kept.refl b : Kept _ _ b b) with }

theorem Kept.given_le (kept : b.Kept own bytes c) (a : Algebra) : b.given a ≤ c.given a := by
  cases a with
  | connection => exact kept.connections.size_le
  | copyIn => exact kept.copyIns.size_le
  | copyOut => exact kept.copyOuts.size_le
  | copyManager => exact kept.copyManagers.size_le
  | fastpath => exact kept.fastpaths.size_le
  | largeObject => exact kept.largeObjects.size_le
  | directory => exact kept.directories.size_le

/-- What has been given out is not taken back. -/
theorem Step.has {a : Algebra} {r : Ref a} (step : Step b e c) (has : b.Has r) : c.Has r :=
  Nat.lt_of_lt_of_le has (step.kept.given_le a)

theorem Steps.has {a : Algebra} {r : Ref a} (steps : Steps b events c) (has : b.Has r) : c.Has r :=
  steps.invariant has fun _ _ _ has step => step.has has

/-- What holds of a resource and an empty record, and is kept as each event is put on record, holds
after all of them. -/
theorem Steps.recorded {a : Algebra} {r : Ref a} {I : List Event → Bench → Prop} (has : b.Has r)
    (begins : I [] b)
    (kept : ∀ ⦃events c e d⦄, I events c → c.Has r → Step c e d → I (events ++ [e]) d)
    (steps : Steps b events d) : I events d := by
  induction steps with
  | nil => exact begins
  | snoc before step ih => exact kept ih (before.has has) step

/-- What is done with one object is a history. -/
theorem steps_used (ops : List LargeObject.Op) : ∃ events, Steps {} events (used ops) := by
  have history : (∃ events, Steps {} events (used ops)) ∧
      (used ops).Has (⟨0⟩ : Ref .largeObject) := by
    refine used_invariant (I := fun b => (∃ events, Steps {} events b) ∧ b.Has _) ?_ ?_ ops
    · exact ⟨⟨_, .one (.placed "main" (.largeObject 1))⟩, Nat.lt_succ_self 0⟩
    · rintro b o ⟨⟨events, steps⟩, has⟩
      have step := Step.performed has o
      exact ⟨⟨_, steps.snoc step⟩, step.has has⟩
  exact history.1

end Bench
end Simulation
end Cancelable
