import Cancelable.Proofs.Directory
import Cancelable.Proofs.History

/-!
# Descriptors and their bytes over a history

Descriptors share bytes: a copy has those of what it is copied from, and all that is opened for one
identifier has those of its object.  Where the bytes of a descriptor are is settled once and for
all.  So each event can be read in one of two ways: it leaves a descriptor as it is, or it is an
operation on that descriptor; it leaves bytes as they are, or it is an operation on a descriptor of
them.

Main statements: what an event makes of a descriptor (`Bench.Step.objectOf_cases`) and of bytes
(`Bench.Step.contents_cases`), and that bytes stay until they are written or truncated through a
descriptor of them (`Bench.Steps.contents_eq`).
-/

namespace Cancelable
namespace Simulation

/-- An event in which bytes are written or truncated through a descriptor. -/
inductive Event.Rewrites (r : Ref .largeObject) : Event → Prop where
  | write (patch : Bytes) (answer : Except Stop Unit) :
    Rewrites r (.performed r (.write patch : LargeObject.Op) answer)
  | truncate (len : Int) (answer : Except Stop Unit) :
    Rewrites r (.performed r (.truncate len : LargeObject.Op) answer)

namespace Bench

variable {b c d : Bench} {r r' : Ref .largeObject} {e : Event} {events : List Event}

/-- Two descriptors of one object: they read and write the same bytes. -/
def Shares (b : Bench) (r r' : Ref .largeObject) : Prop :=
  (b.objectOf r).contents = (b.objectOf r').contents

theorem Shares.bytesOf_eq (shares : b.Shares r r') : b.bytesOf r = b.bytesOf r' :=
  congrArg b.contents.get shares

/-! ## Operations on a descriptor -/

/-- A descriptor after an operation on it that succeeds. -/
theorem objectOf_afterwards (has : b.Has r) (o : LargeObject.Op) :
    (b.afterwards r o).objectOf r = LargeObject.next (b.objectOf r) (b.bytesOf r) o := by
  cases o with
  | oid | tell | size | truncate => rfl
  | read | seek | close | write => exact Cells.get_set_self _ _ _
  | copy =>
    have ne : b.largeObjects.size ≠ r.index := Nat.ne_of_gt has
    simp [afterwards, newLargeObject, objectOf, LargeObject.next, Cells.get_add, ne]

/-- Its bytes after the operation. -/
theorem bytes_afterwards (b : Bench) (r : Ref .largeObject) (o : LargeObject.Op) :
    (b.afterwards r o).contents.get (b.objectOf r).contents =
      LargeObject.rewrite (b.objectOf r) (b.bytesOf r) o := by
  cases o with
  | oid | tell | size | read | seek | close | copy => rfl
  | write | truncate => exact Cells.get_set_self _ _ _

theorem objectOf_of_perform {o : LargeObject.Op} {x : LargeObject.Op.Answer Ref o} (has : b.Has r)
    (performed : b.perform r o = (.ok x, c)) :
    c.objectOf r = LargeObject.next (b.objectOf r) (b.bytesOf r) o := by
  obtain ⟨-, -, -, rfl⟩ := of_perform_eq_ok performed
  exact objectOf_afterwards (b := b.noted r o) has o

theorem bytesOf_of_perform {o : LargeObject.Op} {x : LargeObject.Op.Answer Ref o} (has : b.Has r)
    (performed : b.perform r o = (.ok x, c)) :
    c.bytesOf r = LargeObject.rewrite (b.objectOf r) (b.bytesOf r) o := by
  have same : (c.objectOf r).contents = (b.objectOf r).contents := by
    rw [objectOf_of_perform has performed, LargeObject.contents_next]
  obtain ⟨-, -, -, rfl⟩ := of_perform_eq_ok performed
  rw [bytesOf, ← objectOf, same]
  exact bytes_afterwards (b.noted r o) r o

/-- A copy starts at the first byte of what it is copied from. -/
theorem objectOf_of_copy (copied : b.perform r (.copy : LargeObject.Op) = (.ok r', c)) :
    c.objectOf r' = { b.objectOf r with position := 0, closed := false } := by
  obtain ⟨-, -, answered, rfl⟩ := of_perform_eq_ok copied
  cases answered
  exact (Cells.get_add _ _ _).trans (if_pos rfl)

/-! ## Events -/

theorem eq_of_owns {a : Algebra} {r r' : Ref a} (own : owns r a r'.index) : r = r' := by
  obtain ⟨i⟩ := r
  obtain ⟨j⟩ := r'
  cases own.2
  rfl

/-- An event that notifies no connection, if it is a connection that is looked at. -/
def Quiet (a : Algebra) (e : Event) : Prop :=
  a = .connection → ∀ r channel payload, e ≠ .notified r channel payload

/-- An event does not concern a resource, or changes none, or it is an operation on this one that
succeeds.  Connections are notified, too. -/
theorem Step.concern_cases {a : Algebra} {q : Ref a} (quiet : Quiet a e) (step : Step b e c) :
    ¬ e.concerns a q.index ∨ b.Same c ∨
      ∃ (o : Op a) (x : Op.Answer Ref o),
        b.Has q ∧ e = .performed q o (.ok x) ∧ b.perform q o = (.ok x, c) := by
  by_cases own : e.concerns a q.index
  · right
    cases step with
    | placed | scripted | hit | journaled => cases own
    | notified => exact absurd rfl (quiet own.1 _ _ _)
    | @performed a' q' has o =>
      obtain rfl : a = a' := own.1
      obtain rfl : q' = q := eq_of_owns own
      cases performed : b.perform q' o with
      | mk answer d =>
        cases answer with
        | error stop => exact .inl (same_of_perform_error performed)
        | ok x => exact .inr ⟨o, x, has, rfl, performed⟩
  · exact .inl own

/-- An event is an operation on a resource that succeeds, or it is no such operation, and then it
does not concern the resource or changes none. -/
theorem Step.own_cases {a : Algebra} (q : Ref a) (quiet : Quiet a e) (step : Step b e c) :
    (∃ (o : Op a) (x : Op.Answer Ref o),
      e = .performed q o (.ok x) ∧ b.perform q o = (.ok x, c)) ∨
    (∀ (o : Op a) (x : Op.Answer Ref o), e ≠ .performed q o (.ok x)) ∧
      (¬ e.concerns a q.index ∨ b.Same c) := by
  by_cases own : ∃ (o : Op a) (x : Op.Answer Ref o), e = .performed q o (.ok x)
  · left
    obtain ⟨o, x, rfl⟩ := own
    exact ⟨o, x, rfl, step.performed_eq.2⟩
  · right
    have other : ∀ (o : Op a) (x : Op.Answer Ref o), e ≠ .performed q o (.ok x) := by
      intro o x eq
      exact own ⟨o, x, eq⟩
    refine ⟨other, ?_⟩
    rcases step.concern_cases (q := q) quiet with apart | same | ⟨o, x, -, eq, -⟩
    · exact .inl apart
    · exact .inr same
    · exact absurd eq (other o x)

/-- An event leaves a descriptor as it is, or it is an operation on it that succeeds. -/
theorem Step.objectOf_cases (has : b.Has r) (step : Step b e c) :
    c.objectOf r = b.objectOf r ∨
      ∃ (o : LargeObject.Op) (x : LargeObject.Op.Answer Ref o),
        e = .performed r o (.ok x) ∧ b.perform r o = (.ok x, c) := by
  rcases step.concern_cases (q := r) nofun with other | same | ⟨o, x, -, eq, performed⟩
  · exact .inl (step.kept.largeObjects.get_eq has other)
  · exact .inl (by simp only [objectOf, same.largeObjects])
  · exact .inr ⟨o, x, eq, performed⟩

/-- An event leaves a directory as it is, or it is an operation on it that succeeds. -/
theorem Step.directoryOf_cases {q : Ref .directory} (has : b.Has q) (step : Step b e c) :
    c.directoryOf q = b.directoryOf q ∨
      ∃ (o : Directory.Op) (x : Directory.Op.Answer Ref o),
        e = .performed q o (.ok x) ∧ b.perform q o = (.ok x, c) := by
  rcases step.concern_cases (q := q) nofun with other | same | ⟨o, x, -, eq, performed⟩
  · exact .inl (step.kept.directories.get_eq has other)
  · exact .inl (by simp only [directoryOf, same.directories])
  · exact .inr ⟨o, x, eq, performed⟩

/-- An event leaves bytes as they are, or it writes or truncates through a descriptor of them. -/
theorem Step.contents_cases {i : Nat} (given : i < b.contents.size) (step : Step b e c) :
    c.contents.get i = b.contents.get i ∨
      ∃ (q : Ref .largeObject) (o : LargeObject.Op) (x : LargeObject.Op.Answer Ref o),
        b.Has q ∧ (b.objectOf q).contents = i ∧ e.Rewrites q ∧ e = .performed q o (.ok x) ∧
          b.perform q o = (.ok x, c) := by
  by_cases ours : e.rewrites b i
  · cases step with
    | placed | scripted | hit | notified | journaled => cases ours
    | @performed a q has o =>
      cases performed : b.perform q o with
      | mk answer d =>
        cases answer with
        | error stop =>
          left
          simp only [(same_of_perform_error performed).contents]
        | ok x =>
          right
          cases a with
          | connection | copyIn | copyOut | copyManager | fastpath | directory => cases ours
          | largeObject =>
            cases o with
            | oid | tell | size | read | seek | close | copy => cases ours
            | write patch =>
              exact ⟨q, .write patch, x, has, ours.symm, .write patch _, rfl, performed⟩
            | truncate len =>
              exact ⟨q, .truncate len, x, has, ours.symm, .truncate len _, rfl, performed⟩
  · exact .inl (step.kept.contents.get_eq given ours)

/-! ## Histories -/

/-- The bytes of a descriptor stay where they are, and so does its identifier. -/
theorem Step.contents_objectOf (has : b.Has r) (step : Step b e c) :
    (c.objectOf r).contents = (b.objectOf r).contents := by
  rcases step.objectOf_cases has with same | ⟨o, x, -, performed⟩
  · rw [same]
  · rw [objectOf_of_perform has performed, LargeObject.contents_next]

theorem Steps.contents_objectOf (has : b.Has r) (steps : Steps b events c) :
    (c.objectOf r).contents = (b.objectOf r).contents := by
  induction steps with
  | nil => rfl
  | snoc before step ih => exact (step.contents_objectOf (before.has has)).trans ih

theorem Steps.shares (has : b.Has r) (has' : b.Has r') (steps : Steps b events c)
    (shares : b.Shares r r') : c.Shares r r' := by
  rw [Shares, steps.contents_objectOf has, steps.contents_objectOf has']
  exact shares

/-- Only what has been given out occurs in a history. -/
theorem Steps.has_of_mem {a : Algebra} {q : Ref a} {o : Op a}
    {answer : Except Stop (Op.Answer Ref o)} (steps : Steps b events c)
    (mem : Event.performed q o answer ∈ events) : c.Has q := by
  induction steps with
  | nil => cases mem
  | @snoc _ before _ _ _ step ih =>
    rcases List.mem_append.mp mem with earlier | last
    · exact step.has (ih earlier)
    · have has : before.Has q := by
        cases List.mem_singleton.mp last
        cases step with
        | performed has => exact has
      exact step.has has

/-- Bytes stay until something is written to them, or they are truncated. -/
theorem Steps.contents_eq {i : Nat} (given : i < b.contents.size) (steps : Steps b events c)
    (spared : ∀ e ∈ events, ∀ q, e.Rewrites q → (c.objectOf q).contents ≠ i) :
    c.contents.get i = b.contents.get i := by
  induction steps with
  | nil => rfl
  | @snoc events before c e steps step ih =>
    have kept : before.contents.get i = b.contents.get i := by
      refine ih fun e' mem q rewrites => ?_
      -- the descriptor was there already, so its bytes are where they are in the end
      have has : before.Has q := by
        cases rewrites with
        | write | truncate => exact steps.has_of_mem mem
      have ne := spared e' (List.mem_append_left _ mem) q rewrites
      rwa [step.contents_objectOf has] at ne
    have still : i < before.contents.size :=
      steps.invariant (I := fun b => i < b.contents.size) given
        fun _ _ _ given step => Nat.lt_of_lt_of_le given step.kept.contents.size_le
    rcases step.contents_cases still with same | ⟨q, o, x, has, at_q, rewrites, -, -⟩
    · exact same.trans kept
    · have ne := spared e (List.mem_append_right _ (List.mem_singleton_self e)) q rewrites
      rw [step.contents_objectOf has] at ne
      exact absurd at_q ne

end Bench
end Simulation
end Cancelable
