import Mathlib.Algebra.BigOperators.Group.List.Basic
import Mathlib.Algebra.Ring.Int.Defs
import Cancelable.Proofs.Functions

/-!
# Sums of arguments

Called for a number, a function adds up its integer arguments from the left, within the integers of
64 bits.  A sum on the way that leaves them breaks off the caller, even if the arguments after it
would bring the sum back.  So an answer is exact as long as no sum on the way leaves the integers of
64 bits, and that depends on the order of the arguments: large ones of both signs cancel out in one
order and overflow in another.  If the arguments fit even without their signs, no order matters.

Main statements: a sum is found exactly if those on the way to it are integers of 64 bits
(`Fastpath.sumFrom_of_bounded`, `Fastpath.sumFrom_of_not_bounded`), and so it is with the answers of
a function (`Bench.answered_total_iff`).
-/

namespace Cancelable
namespace Simulation

/-! ## Sums on the way -/

namespace Fastpath

/-- The integers among the arguments. -/
def numbers (args : List Fastpath.Arg) : List Int :=
  args.filterMap fun
    | .int n | .long n => some n
    | .bytes _ | .text _ => none

/-- The exact sum of the integers among the arguments. -/
def total (args : List Fastpath.Arg) : Int :=
  (numbers args).sum

/-- The sum of the integers without their signs. -/
def magnitude (args : List Fastpath.Arg) : Int :=
  ((numbers args).map fun n => (n.natAbs : Int)).sum

/-- Up to whatever argument, the sum is an integer of 64 bits. -/
def Bounded (args : List Fastpath.Arg) : Prop :=
  ∀ before, before <+: args → Width.int64.holds (total before) = true

@[simp] theorem total_nil : total [] = 0 := rfl

@[simp] theorem total_cons (arg : Fastpath.Arg) (rest : List Fastpath.Arg) :
    total (arg :: rest) = Arg.number arg + total rest := by
  cases arg <;> simp [total, numbers, Arg.number]

/-- The order of the arguments does not matter to their sum. -/
theorem total_of_perm {args args' : List Fastpath.Arg} (perm : args'.Perm args) :
    total args' = total args :=
  (perm.filterMap _).sum_eq

theorem magnitude_of_perm {args args' : List Fastpath.Arg} (perm : args'.Perm args) :
    magnitude args' = magnitude args :=
  ((perm.filterMap _).map _).sum_eq

@[simp] theorem magnitude_cons (arg : Fastpath.Arg) (rest : List Fastpath.Arg) :
    magnitude (arg :: rest) = ((Arg.number arg).natAbs : Int) + magnitude rest := by
  cases arg <;> simp [magnitude, numbers, Arg.number]

/-- A sum on the way is no larger than the arguments without their signs. -/
theorem natAbs_total_le {before args : List Fastpath.Arg} (part : before <+: args) :
    ((total before).natAbs : Int) ≤ magnitude args := by
  induction args generalizing before with
  | nil =>
    obtain rfl := List.prefix_nil.mp part
    exact Int.le_refl 0
  | cons arg rest ih =>
    -- a part is empty, or begins with the same argument
    rcases List.prefix_cons_iff.mp part with rfl | ⟨before', rfl, part'⟩
    · have rest := ih List.nil_prefix
      simp only [total_nil, magnitude_cons] at rest ⊢
      omega
    · have rest := ih part'
      simp only [total_cons, magnitude_cons]
      omega

/-- Arguments that fit without their signs have no sum on the way that does not fit. -/
theorem bounded_of_magnitude {args : List Fastpath.Arg}
    (fits : Width.int64.holds (magnitude args) = true) : Bounded args := by
  intro before part
  have le := natAbs_total_le part
  rw [Width.holds_iff] at fits ⊢
  simp only [Width.int64] at fits ⊢
  omega

/-! ## What is found -/

variable {args : List Fastpath.Arg} {start : Int}

/-- Added to `start`, the arguments have a sum if those on the way to it fit. -/
theorem sumFrom_of_bounded
    (bounded : ∀ before, before <+: args → Width.int64.holds (start + total before) = true) :
    sumFrom start args = .ok (start + total args) := by
  induction args generalizing start with
  | nil => simp [sumFrom]
  | cons arg rest ih =>
    have first : Work.sum start (Arg.number arg) = .ok (start + Arg.number arg) := by
      have fits := bounded [arg] (List.prefix_append [arg] rest)
      rw [total_cons, total_nil, Int.add_zero] at fits
      rw [Work.sum, if_pos fits]
    -- a sum on the way through the rest is one through all arguments that is past the first
    have later : sumFrom (start + Arg.number arg) rest =
        .ok (start + Arg.number arg + total rest) := by
      refine ih fun before part => ?_
      have fits := bounded (arg :: before) (List.cons_prefix_cons.mpr ⟨rfl, part⟩)
      rwa [total_cons, ← Int.add_assoc] at fits
    calc
      sumFrom start (arg :: rest) = sumFrom (start + Arg.number arg) rest := by
        rw [sumFrom, first]
        rfl
      _ = .ok (start + total (arg :: rest)) := by rw [later, total_cons, Int.add_assoc]

/-- If one on the way does not fit there is no sum, whatever comes after it. -/
theorem sumFrom_of_not_bounded (begins : Width.int64.holds start = true)
    {before : List Fastpath.Arg} (part : before <+: args)
    (leaves : Width.int64.holds (start + total before) = false) :
    sumFrom start args = .error .overflow := by
  induction args generalizing start before with
  | nil =>
    obtain rfl := List.prefix_nil.mp part
    simp [begins] at leaves
  | cons arg rest ih =>
    rcases List.prefix_cons_iff.mp part with rfl | ⟨before', rfl, part'⟩
    · simp [begins] at leaves
    · -- the first sum that does not fit is this one, or it is further on
      rw [total_cons, ← Int.add_assoc] at leaves
      rw [sumFrom, Work.sum]
      cases fits : Width.int64.holds (start + Arg.number arg) with
      | false => rfl
      | true => exact ih fits part' leaves

/-- The sum of all arguments, if those on the way to it fit, and an overflow if not. -/
theorem sumFrom_zero (args : List Fastpath.Arg) :
    (Bounded args → sumFrom 0 args = .ok (total args)) ∧
      (¬ Bounded args → sumFrom 0 args = .error .overflow) := by
  constructor
  · intro bounded
    have fits : ∀ before, before <+: args → Width.int64.holds (0 + total before) = true := by
      simpa only [Int.zero_add, Bounded] using bounded
    rw [sumFrom_of_bounded fits, Int.zero_add]
  · intro unbounded
    simp only [Bounded, not_forall, Bool.not_eq_true] at unbounded
    obtain ⟨before, part, leaves⟩ := unbounded
    exact sumFrom_of_not_bounded rfl part (by rwa [Int.zero_add])

end Fastpath

/-! ## What is answered -/

namespace Bench

variable {b : Bench} {r : Ref .fastpath} {name : String} {oid : Int} {args : List Fastpath.Arg}

/-- Called for a number, a function is answered `n`, or as a number of 32 bits that it is out of
range. -/
structure Answered (b : Bench) (r : Ref .fastpath) (name : String) (args : List Fastpath.Arg)
    (n : Int) : Prop where
  integer : (b.perform r (.getInteger name args : Fastpath.Op)).1 =
    if Width.int32.holds n then .ok n else .error (.rejected .integerOutOfRange)
  long : (b.perform r (.getLong name args : Fastpath.Op)).1 = .ok n
  oid : (b.perform r (.getOid name args : Fastpath.Op)).1 = .ok n

/-- Called for a number, a function breaks off the caller. -/
structure BrokenOff (b : Bench) (r : Ref .fastpath) (name : String) (args : List Fastpath.Arg) :
    Prop where
  integer : (b.perform r (.getInteger name args : Fastpath.Op)).1 = .error .overflow
  long : (b.perform r (.getLong name args : Fastpath.Op)).1 = .error .overflow
  oid : (b.perform r (.getOid name args : Fastpath.Op)).1 = .error .overflow

/-- A function that has a name is called: its answers are those of the sum. -/
theorem answers_of_registered (free : ∀ o : Fastpath.Op, b.Unscripted r o)
    (known : (b.fastpathOf r).functions[name]? = some oid) (args : List Fastpath.Arg) :
    (b.perform r (.getInteger name args : Fastpath.Op)).1 = (do
        let total ← Fastpath.sumFrom 0 args
        Work.require (Width.int32.holds total) .integerOutOfRange
        return total) ∧
      (b.perform r (.getLong name args : Fastpath.Op)).1 = Fastpath.sumFrom 0 args ∧
      (b.perform r (.getOid name args : Fastpath.Op)).1 = Fastpath.sumFrom 0 args := by
  have found : Fastpath.find (b.fastpathOf r) name = .ok oid := by rw [Fastpath.find, known]
  simp only [perform_fastpath_fst (free _), Fastpath.answer, found]
  exact ⟨rfl, rfl, rfl⟩

theorem answered_of_bounded (free : ∀ o : Fastpath.Op, b.Unscripted r o)
    (known : (b.fastpathOf r).functions[name]? = some oid) (bounded : Fastpath.Bounded args) :
    b.Answered r name args (Fastpath.total args) := by
  obtain ⟨integer, long, object⟩ := answers_of_registered free known args
  rw [(Fastpath.sumFrom_zero args).1 bounded] at integer long object
  refine ⟨?_, long, object⟩
  rw [integer]
  show (do
    Work.require (Width.int32.holds (Fastpath.total args)) .integerOutOfRange
    return Fastpath.total args : Except Stop Int) = _
  cases Width.int32.holds (Fastpath.total args) with
  | false => rfl
  | true => rfl

theorem brokenOff_of_not_bounded (free : ∀ o : Fastpath.Op, b.Unscripted r o)
    (known : (b.fastpathOf r).functions[name]? = some oid) (unbounded : ¬ Fastpath.Bounded args) :
    b.BrokenOff r name args := by
  obtain ⟨integer, long, object⟩ := answers_of_registered free known args
  rw [(Fastpath.sumFrom_zero args).2 unbounded] at integer long object
  exact ⟨integer, long, object⟩

/-- A function that has a name is called for a number, and no failure is scripted.  Its answers are
the exact sum of its integer arguments exactly if no sum on the way leaves the integers of 64 bits,
and else it breaks off the caller.  In any order of the arguments in which no sum on the way does
so the answers are the same, and in every order if the arguments fit without their signs. -/
theorem answered_total_iff (free : ∀ o : Fastpath.Op, b.Unscripted r o)
    (known : (b.fastpathOf r).functions[name]? = some oid) (args : List Fastpath.Arg) :
    (b.Answered r name args (Fastpath.total args) ↔ Fastpath.Bounded args) ∧
      (¬ Fastpath.Bounded args → b.BrokenOff r name args) ∧
      (∀ args', args'.Perm args → Fastpath.Bounded args' →
        b.Answered r name args' (Fastpath.total args)) ∧
      (Width.int64.holds (Fastpath.magnitude args) = true →
        ∀ args', args'.Perm args → b.Answered r name args' (Fastpath.total args)) := by
  have exact_of_perm : ∀ args', args'.Perm args → Fastpath.Bounded args' →
      b.Answered r name args' (Fastpath.total args) := by
    intro args' perm bounded
    rw [← Fastpath.total_of_perm perm]
    exact answered_of_bounded free known bounded
  refine ⟨⟨?_, answered_of_bounded free known⟩, brokenOff_of_not_bounded free known, exact_of_perm,
    ?_⟩
  · intro answered
    by_contra unbounded
    -- an answer is not an overflow
    cases answered.long.symm.trans (brokenOff_of_not_bounded free known unbounded).long
  · intro fits args' perm
    rw [← Fastpath.magnitude_of_perm perm] at fits
    exact exact_of_perm args' perm (Fastpath.bounded_of_magnitude fits)

/-! ## One function -/

/-- A new channel, with which one name has been registered. -/
def summing : Bench :=
  ((newFastpath {} "main").2.perform (⟨0⟩ : Ref .fastpath) (.addFunction "sum" 1 : Fastpath.Op)).2

theorem summing_spec :
    (∀ o : Fastpath.Op, summing.Unscripted (⟨0⟩ : Ref .fastpath) o) ∧
      (summing.fastpathOf ⟨0⟩).functions["sum"]? = some 1 := by
  have fresh : ∀ o : Fastpath.Op,
      (newFastpath {} "main").2.Unscripted (⟨0⟩ : Ref .fastpath) o :=
    fun o => by cases o <;> rfl
  obtain ⟨c, performed, same, probes⟩ := perform_fastpath (fresh (.addFunction "sum" 1))
  have after : summing = c := congrArg Prod.snd performed
  rw [after]
  exact ⟨fun o => unscripted_of_same (fresh o) same probes, by simp [same, Fastpath.next]⟩

/-- Two to the power of 31 is answered as a number of 64 bits, and is out of range as one of 32. -/
theorem answered_total_beyond_int32 :
    let r : Ref .fastpath := ⟨0⟩
    let args : List Fastpath.Arg := [.long 0x80000000, .bytes #[1], .int 1, .int (-1)]
    (summing.perform r (.getLong "sum" args : Fastpath.Op)).1 = .ok 0x80000000 ∧
      (summing.perform r (.getInteger "sum" args : Fastpath.Op)).1 =
        .error (.rejected .integerOutOfRange) := by
  intro r args
  obtain ⟨-, -, -, inEveryOrder⟩ := answered_total_iff summing_spec.1 summing_spec.2 args
  have answered := inEveryOrder rfl args (.refl args)
  exact ⟨answered.long, answered.integer⟩

/-- The greatest integer of 64 bits, and one more, and one less: the sum is that integer, but if it
is asked for in this order the caller is broken off.  In the other order it is answered. -/
theorem total_overflows_on_the_way :
    let r : Ref .fastpath := ⟨0⟩
    let args : List Fastpath.Arg := [.long 0x7fffffffffffffff, .long 1, .long (-1)]
    let other : List Fastpath.Arg := [.long 0x7fffffffffffffff, .long (-1), .long 1]
    Fastpath.total args = 0x7fffffffffffffff ∧
      summing.BrokenOff r "sum" args ∧
      (summing.perform r (.getLong "sum" other : Fastpath.Op)).1 = .ok 0x7fffffffffffffff := by
  intro r args other
  have unbounded : ¬ Fastpath.Bounded args := by
    intro bounded
    cases bounded [.long 0x7fffffffffffffff, .long 1] ⟨[.long (-1)], rfl⟩
  refine ⟨rfl, brokenOff_of_not_bounded summing_spec.1 summing_spec.2 unbounded, ?_⟩
  exact (answers_of_registered summing_spec.1 summing_spec.2 other).2.1

end Bench
end Simulation
end Cancelable
