import Cancelable.Proofs.MaskAlgebra
import Cancelable.Proofs.PollFree

/-!
# Resources

The usual way to acquire a resource, to use it and to give it back: in a region, a poll acquires it
and may be canceled, in which case a finalizer gives back what there is; otherwise it is used, and
no cancellation comes in between.  A request may come before the poll, while it is on its way, in
its last operation, or later, and each time another frame has to deal with it.

Main statement: when the region has come to its result, either the finalizer has been run or what
comes after it, but not both, and none of the two has been interrupted (`Course.disposed`).
-/

namespace Cancelable

variable {B : Backend} {P : Procedures} {ρ : Type}

/-! ## The region and its frames -/

/-- In a region, acquire a resource under a poll, with a finalizer in case that is canceled, and
then use it. -/
def Program.resource {a : Algebra} {α β : Type} (acquire : Program B P a α)
    (release : Program B P a Unit) (use : Program B P a β) : Program B P a β :=
  .uncancelable fun token => .andThen (.onCancel (.poll token acquire) release) use

namespace Stack

variable {a : Algebra} {β : Type}

/-- What remains to be done after a resource was acquired, in a region that was entered at the depth
`m`. -/
def beforeUse (α : Type) (use : Program B P a β) (m : Nat) (stack : Stack B P a β ρ) :
    Stack B P a α ρ :=
  .cons (.bind fun _ => use) (.cons (.region m) stack)

/-- The frames below the program that acquires a resource. -/
def acquiring (α : Type) (release : Program B P a Unit) (use : Program B P a β) (m : Nat)
    (stack : Stack B P a β ρ) : Stack B P a α ρ :=
  .cons (.unmasked (m + 1)) (.cons (.onCancel release) (stack.beforeUse α use m))

/-- The frames below the finalizer that gives a resource back. -/
def releasing (α : Type) (use : Program B P a β) (m : Nat) (stack : Stack B P a β ρ) :
    Stack B P a Unit ρ :=
  .cons (.finalizing (m + 1)) (stack.beforeUse α use m)

end Stack

namespace Course

section Resource

variable {f : Fiber} {a : Algebra} {α β : Type} {site : Site B a} {stack : Stack B P a β ρ}

/-- From step `i` on results are handed on, until step `j`, and nothing is carried out. -/
structure HandsOn (run : Nat → Course B P ρ) (i j : Nat) : Prop where
  results : ∀ k, i ≤ k → k < j → (run k).state.control.isResult = true
  operations_eq : (run j).operations = (run i).operations

/-- How the region of a resource that was entered at the depth `m` came to a result at step `n`. -/
inductive Disposed (run : Nat → Course B P ρ) (f : Fiber) (m : Nat) (site : Site B a)
    (stack : Stack B P a β ρ) (acquire : Program B P a α) (release : Program B P a Unit)
    (use : Program B P a β) (n : Nat) : Except Interrupted β → Prop where
  -- the finalizer is run once, after a cancellation, and what it comes to is of no account
  | released {i j : Nat} {r : Except Interrupted Unit}
      (acquired : Part run f site (.acquiring α release use m stack) acquire 4 i (.error .canceled))
      (handed : HandsOn run i (i + 2))
      (released : Part run f site (.releasing α use m stack) release (i + 2) j r)
      (shielded : Shielded run f (m + 2) (i + 2) j) (uncanceled : r ≠ .error .canceled)
      (left : HandsOn run j n) (last : n = j + 3) :
      Disposed run f m site stack acquire release use n (.error .canceled)
  -- a request that is made in time shows when the region is left
  | used {i j : Nat} {x : α} {r : Except Interrupted β}
      (acquired : Part run f site (.acquiring α release use m stack) acquire 4 i (.ok x))
      (handed : HandsOn run i (i + 3))
      (used : Part run f site (.cons (.region m) stack) use (i + 3) j r)
      (shielded : Shielded run f (m + 1) (i + 3) j) (uncanceled : r ≠ .error .canceled)
      (left : HandsOn run j n) (last : n = j + 1) :
      Disposed run f m site stack acquire release use n (leftWith f m (run j).scene.fibers r)
  | failed {i : Nat} {failure : Failure}
      (acquired : Part run f site (.acquiring α release use m stack) acquire 4 i
        (.error (.errored failure)))
      (left : HandsOn run i n) (last : n = i + 4) :
      Disposed run f m site stack acquire release use n
        (leftWith f m (run i).scene.fibers (.error (.errored failure)))

end Resource

/-! ## Step by step -/

section Steps

variable {bodies : Bodies B P} {rt : Runtime} {others : Nat → Scene B → Scene B} {f : Fiber}
  {a : Algebra} {α : Type} {site : Site B a} {stack : Stack B P a α ρ} {p : Program B P a α}
  {run : Nat → Course B P ρ} {i n k : Nat} {r r' : Except Interrupted α}

/-- Before a program has come to its result, the run takes a step. -/
theorem Part.step (part : Part run f site stack p i n r)
    (steps : ∀ n, run (n + 1) = (run n).next bodies rt others) (within : k ≤ n)
    {s t : State B P ρ} {sc sc' : Scene B} (state : (run k).state = s)
    (scene : (run k).scene = sc) (away : ¬s.Back site stack)
    (step : s.step bodies rt sc = .more t sc') (idle : s.executes sc = []) :
    k + 1 ≤ n ∧ run (k + 1) = { run k with state := t, scene := sc' } := by
  subst state scene
  constructor
  · refine Nat.lt_of_le_of_ne within fun last => away ?_
    rw [last]
    exact part.back
  · rw [steps]
    exact next_of_idle (pending_of_le steps within part.pending) step idle

/-- Where a run is back on a stack, the program there has come to its result, if it has not done so
before. -/
theorem Part.last (part : Part run f site stack p i n r) (le : i ≤ k) (within : k ≤ n) {calls : Nat}
    (state : (run k).state = ⟨f, calls, site, .give r', stack⟩) : n = k ∧ r = r' := by
  have back : (run k).state.Back site stack := ⟨f, calls, r', state⟩
  obtain rfl : k = n := by
    by_contra early
    exact part.away k le (Nat.lt_of_le_of_ne within early) back
  obtain ⟨calls', state'⟩ := part.returns
  rw [state] at state'
  cases state'
  exact ⟨rfl, rfl⟩

variable {b : Algebra} {γ : Type} {site' : Site B b} {stack' : Stack B P b γ ρ} {calls j : Nat}
  {result : Except Interrupted γ}

theorem HandsOn.here : HandsOn run j j :=
  ⟨fun _ le lt => absurd lt (Nat.not_lt_of_le le), rfl⟩

/-- A result above the stack of a program is handed on before the program has come to its result. -/
theorem HandsOn.next (hands : HandsOn run j k) (part : Part run f site stack p i n r)
    (steps : ∀ n, run (n + 1) = (run n).next bodies rt others) (within : k ≤ n)
    (state : (run k).state = ⟨f, calls, site', .give result, stack'⟩)
    (above : stack.height < stack'.height) {t : State B P ρ} {sc : Scene B}
    (step : State.step bodies rt ⟨f, calls, site', .give result, stack'⟩ (run k).scene =
      .more t sc) :
    k + 1 ≤ n ∧ run (k + 1) = { run k with state := t, scene := sc } ∧ HandsOn run j (k + 1) := by
  obtain ⟨within, next⟩ :=
    part.step steps within state rfl (State.not_back_of_height above) step rfl
  refine ⟨within, next, ?_, ?_⟩
  · intro l le lt
    rcases Nat.lt_succ_iff_lt_or_eq.mp lt with lt | rfl
    · exact hands.results l le lt
    · rw [state]
      rfl
  · rw [next]
    exact hands.operations_eq

end Steps

/-! ## The course of a resource -/

section Resource

variable {bodies : Bodies B P} {rt : Runtime} {others : Nat → Scene B → Scene B} {f : Fiber}
  {a : Algebra} {α β : Type} {site : Site B a} {stack : Stack B P a β ρ} {acquire : Program B P a α}
  {release : Program B P a Unit} {use : Program B P a β} {run : Nat → Course B P ρ} {n m : Nat}
  {r : Except Interrupted β} {sc : Scene B}

/-- In the region the mask is raised and lowered again, so the resource is acquired in the scene in
which the region was entered. -/
theorem resource_entered (steps : ∀ n, run (n + 1) = (run n).next bodies rt others) {calls : Nat}
    (begins : (run 0).state =
      ⟨f, calls, site, .run (.resource acquire release use), stack⟩)
    (depth : (run 0).scene.fibers.mask f = m)
    (clear : (run 0).scene.fibers.isCanceled f = false)
    (part : Part run f site stack (.resource acquire release use) 0 n r) :
    4 ≤ n ∧ run 4 =
      { run 0 with
        state := ⟨f, calls, site, .run acquire, stack.acquiring α release use m⟩ } := by
  have masked : ((run 0).scene.setMask f (m + 1)).fibers.isCanceled f = false := by
    apply Fibers.isCanceled_of_mask_pos
    rw [Scene.fibers_setMask, Fibers.mask_setMask_self]
    exact m.succ_pos
  obtain ⟨le₁, next₁⟩ := part.step steps n.zero_le begins rfl (State.not_back_of_run _ _)
    (State.step_region _ depth clear) rfl
  obtain ⟨le₂, next₂⟩ := part.step steps le₁ (congrArg state next₁) (congrArg scene next₁)
    (State.not_back_of_run _ _) rfl rfl
  obtain ⟨le₃, next₃⟩ := part.step steps le₂ (congrArg state next₂) (congrArg scene next₂)
    (State.not_back_of_run _ _) (State.observing_of_clear masked _) rfl
  obtain ⟨le₄, next₄⟩ := part.step steps le₃ (congrArg state next₃) (congrArg scene next₃)
    (State.not_back_of_run _ _) (State.step_poll_in_region acquire depth clear) rfl
  refine ⟨le₄, ?_⟩
  rw [next₄, next₃, next₂, next₁]
  rfl

variable {i k calls : Nat}

/-- When what is run in the region has come to a result, the region is left with it. -/
theorem HandsOn.leave {j : Nat} {result : Except Interrupted β} {p : Program B P a β}
    (hands : HandsOn run j k) (part : Part run f site stack p 0 n r)
    (steps : ∀ n, run (n + 1) = (run n).next bodies rt others) (within : k ≤ n)
    (state : (run k).state = ⟨f, calls, site, .give result, .cons (.region m) stack⟩) :
    n = k + 1 ∧ r = leftWith f m (run k).scene.fibers result ∧ HandsOn run j n := by
  obtain ⟨sc', -, leave⟩ := State.step_leave bodies rt f calls m site result stack (run k).scene
  obtain ⟨within, next, hands⟩ :=
    hands.next part steps within state (Nat.lt_succ_self _) leave
  obtain ⟨rfl, rfl⟩ := part.last (Nat.zero_le _) within (congrArg Course.state next)
  exact ⟨rfl, rfl, hands⟩

section Acquired

variable {p : Program B P a β} (steps : ∀ n, run (n + 1) = (run n).next bodies rt others)
  (part : Part run f site stack p 0 n r)

include steps part

/-- A failure is handed on to the end of the region. -/
theorem disposed_of_errored {failure : Failure}
    (acquired : Part run f site (stack.acquiring α release use m) acquire 4 i
      (.error (.errored failure)))
    (lt : i < n) : Disposed run f m site stack acquire release use n r := by
  obtain ⟨calls, state⟩ := acquired.returns
  obtain ⟨le₁, next₁, hands⟩ := HandsOn.here.next part steps (Nat.le_of_lt lt) state
    (Nat.lt_add_of_pos_right (by decide : 0 < 4)) rfl
  obtain ⟨le₂, next₂, hands⟩ := hands.next part steps le₁ (congrArg Course.state next₁)
    (Nat.lt_add_of_pos_right (by decide : 0 < 3)) rfl
  obtain ⟨le₃, next₃, hands⟩ := hands.next part steps le₂ (congrArg Course.state next₂)
    (Nat.lt_add_of_pos_right (by decide : 0 < 2)) rfl
  obtain ⟨last, rfl, left⟩ := hands.leave part steps le₃ (congrArg Course.state next₃)
  rw [next₃, next₂, next₁, Scene.fibers_setMask, leftWith_setMask]
  exact .failed acquired left last

variable {admitted : {a : Algebra} → {α : Type} → P a α → Prop}
  (closed : ∀ {a : Algebra} {α : Type} (procedure : P a α), admitted procedure →
    (bodies procedure).PollFree admitted)
  (keeps : ∀ n (sc : Scene B), (others n sc).fibers.mask f = sc.fibers.mask f)

include closed keeps

/-- After a value the resource is used, and with what comes of that the region is left. -/
theorem disposed_of_ok (free : use.PollFree admitted) {x : α}
    (acquired : Part run f site (stack.acquiring α release use m) acquire 4 i (.ok x))
    (lt : i < n) : Disposed run f m site stack acquire release use n r := by
  obtain ⟨calls, state⟩ := acquired.returns
  obtain ⟨le₁, next₁, hands⟩ := HandsOn.here.next part steps (Nat.le_of_lt lt) state
    (Nat.lt_add_of_pos_right (by decide : 0 < 4)) rfl
  obtain ⟨le₂, next₂, hands⟩ := hands.next part steps le₁ (congrArg Course.state next₁)
    (Nat.lt_add_of_pos_right (by decide : 0 < 3)) rfl
  obtain ⟨le₃, next₃, hands⟩ := hands.next part steps le₂ (congrArg Course.state next₂)
    (Nat.lt_add_of_pos_right (by decide : 0 < 2)) rfl
  have depth : (run (i + 3)).scene.fibers.mask f = m + 1 := by
    rw [next₃, next₂, next₁]
    exact Fibers.mask_setMask_self ..
  have low : (run n).state.stack.height < stack.height + 1 := by
    rw [part.back.height_eq]
    exact Nat.lt_succ_self _
  obtain ⟨j, result, lt, used⟩ :=
    exists_part steps keeps (congrArg Course.state next₃) le₃ part.pending low
  have shielded := used.shielded steps keeps closed free depth m.succ_pos
  obtain ⟨calls', state'⟩ := used.returns
  obtain ⟨last, rfl, left⟩ := HandsOn.here.leave part steps (Nat.le_of_lt lt) state'
  exact .used acquired hands used shielded (used.ne_canceled shielded) left last

/-- After a cancellation the finalizer is run, and the cancellation is handed on to the end of the
region. -/
theorem disposed_of_canceled (free : release.PollFree admitted)
    (acquired : Part run f site (stack.acquiring α release use m) acquire 4 i (.error .canceled))
    (lt : i < n) : Disposed run f m site stack acquire release use n r := by
  obtain ⟨calls, state⟩ := acquired.returns
  obtain ⟨le₁, next₁, hands⟩ := HandsOn.here.next part steps (Nat.le_of_lt lt) state
    (Nat.lt_add_of_pos_right (by decide : 0 < 4)) rfl
  have depth₁ : (run (i + 1)).scene.fibers.mask f = m + 1 := by
    rw [next₁]
    exact Fibers.mask_setMask_self ..
  -- the finalizer is started one level above the region
  obtain ⟨le₂, next₂, hands⟩ := hands.next part steps le₁ (congrArg Course.state next₁)
    (Nat.lt_add_of_pos_right (by decide : 0 < 3)) (State.step_finalize release depth₁)
  have depth : (run (i + 2)).scene.fibers.mask f = m + 2 := by
    rw [next₂]
    exact Fibers.mask_setMask_self ..
  have low : (run n).state.stack.height < (stack.releasing α use m).height := by
    rw [part.back.height_eq]
    exact Nat.lt_add_of_pos_right (by decide : 0 < 3)
  obtain ⟨j, result, lt, released⟩ :=
    exists_part steps keeps (congrArg Course.state next₂) le₂ part.pending low
  have shielded := released.shielded steps keeps closed free depth (Nat.succ_pos _)
  obtain ⟨calls', state'⟩ := released.returns
  obtain ⟨le₃, next₃, left⟩ := HandsOn.here.next part steps (Nat.le_of_lt lt) state'
    (Nat.lt_add_of_pos_right (by decide : 0 < 3)) rfl
  obtain ⟨le₄, next₄, left⟩ := left.next part steps le₃ (congrArg Course.state next₃)
    (Nat.lt_add_of_pos_right (by decide : 0 < 2)) rfl
  obtain ⟨last, rfl, left⟩ := left.leave part steps le₄ (congrArg Course.state next₄)
  rw [leftWith_canceled]
  exact .released acquired hands released shielded (released.ne_canceled shielded) left last

end Acquired

/-- The usual way to hold a resource is safe.  Let no poll occur in what gives the resource back and
in what uses it, and let the region be entered, on any stack, and whatever others do while it waits
who leave the mask of the fiber alone.  If the region has come to a result, then first of all the
acquisition has come to one, under the poll.  If that was a cancellation, the finalizer has been run
to its end, one level above the region and without being interrupted, and after it nothing but the
cancellation was handed on.  If it was a value, the resource has been used, without an interruption
and without the finalizer, and a request shows only where the region is left at no depth.  If it was
a failure, neither of the two has been run. -/
theorem disposed (bodies : Bodies B P) (rt : Runtime) {others : Nat → Scene B → Scene B} {f : Fiber}
    (keeps : ∀ n (sc : Scene B), (others n sc).fibers.mask f = sc.fibers.mask f)
    {admitted : {a : Algebra} → {α : Type} → P a α → Prop}
    (closed : ∀ {a : Algebra} {α : Type} (procedure : P a α), admitted procedure →
      (bodies procedure).PollFree admitted)
    (acquire : Program B P a α) {release : Program B P a Unit} {use : Program B P a β}
    (release_free : release.PollFree admitted) (use_free : use.PollFree admitted) (calls : Nat)
    (site : Site B a) (stack : Stack B P a β ρ) {sc : Scene B}
    (clear : sc.fibers.isCanceled f = false) :
    let region : Program B P a β := .uncancelable fun token =>
      .andThen (.onCancel (.poll token acquire) release) use
    let run := course bodies rt others ⟨f, calls, site, .run region, stack⟩ sc
    ∀ n r, Part run f site stack region 0 n r →
      (run 4).operations = [] ∧
        Disposed run f (sc.fibers.mask f) site stack acquire release use n r := by
  intro region run n r part
  have steps : ∀ n, run (n + 1) = (run n).next bodies rt others := fun _ => rfl
  obtain ⟨le, entered⟩ := resource_entered steps rfl rfl clear part
  have low : (run n).state.stack.height <
      (stack.acquiring α release use (sc.fibers.mask f)).height := by
    rw [part.back.height_eq]
    exact Nat.lt_add_of_pos_right (by decide : 0 < 4)
  obtain ⟨i, result, lt, acquired⟩ :=
    exists_part steps keeps (congrArg Course.state entered) le part.pending low
  refine ⟨by rw [entered]; rfl, ?_⟩
  rcases result with (failure | _) | x
  · exact disposed_of_errored steps part acquired lt
  · exact disposed_of_canceled steps part closed keeps release_free acquired lt
  · exact disposed_of_ok steps part closed keeps use_free acquired lt

end Resource

/-- A resource is acquired by a blocking call and a note.  The cancellation is requested during the
call, so the note is not written any more; the finalizer writes its own, and the resource is not
used. -/
theorem disposed_when_waiting :
    let f : Fiber := ⟨.numbered 0, .numbered 0⟩
    let acquire : Program .notes .none .largeObject Unit :=
      .bind (.suspend .blocking (Host.update fun written : List Nat => (.ok (), written ++ [1])))
        fun () => .note 2
    let region : Program .notes .none .largeObject Unit := .uncancelable fun token =>
      .andThen (.onCancel (.poll token acquire) (.note 3)) (.note 4)
    let site : Site .notes .largeObject := ⟨(), 0, []⟩
    let stack : Stack .notes .none .largeObject Unit Unit := .nil
    let others (_ : Nat) (sc : Scene .notes) := { sc with fibers := sc.fibers.cancel f }
    let run := course Bodies.none .stepped others ⟨f, 0, site, .run region, stack⟩ (.blank {})
    Part run f site stack region 0 16 (.error .canceled) ∧ (run 16).scene.world = [1, 3] ∧
      Disposed run f 0 site stack acquire (.note 3) (.note 4) 16 (.error .canceled) := by
  intro f acquire region site stack others run
  have part : Part run f site stack region 0 16 (.error .canceled) := by
    refine ⟨by decide, ⟨0, rfl⟩, ?_, rfl, ⟨1, rfl⟩⟩
    intro k _ lt back
    have early : ∀ k < 16,
        ((run k).state.control.isResult && (run k).state.stack.height == 0) = false := by decide
    have done := early k lt
    rw [back.height_eq] at done
    obtain ⟨_, _, _, state⟩ := back
    rw [state] at done
    cases done
  have keeps (n : Nat) (sc : Scene .notes) : (others n sc).fibers.mask f = sc.fibers.mask f := rfl
  have free (k : Nat) :
      (Program.note k : Program .notes .none .largeObject Unit).PollFree fun _ => False := trivial
  have clear : (Scene.blank {}).fibers.isCanceled f = false := rfl
  obtain ⟨-, disposed⟩ := disposed (P := .none) Bodies.none .stepped keeps nofun acquire (free 3)
    (free 4) 0 site stack clear 16 _ part
  exact ⟨part, rfl, disposed⟩

end Course
end Cancelable
