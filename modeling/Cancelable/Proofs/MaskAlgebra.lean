import Cancelable.Proofs.Relay

/-!
# The algebra of masks

A region raises the mask, and a poll of its token lowers it again, so a program that is polled in a
region of its own is run at the depth that it would be run at anyway.  What the region adds is a
look for a cancellation when it is entered, and another one when it is left.  And a token lowers the
mask once: at the depth it leads to it works no longer.

Main statement: a polled region relays its program, up to the two looks, and polls with one token
around each other act as one of them (`Program.mask_algebra`).
-/

namespace Cancelable

variable {B : Backend} {P : Procedures} {ρ ρ' : Type}

/-! ## Going in and out -/

/-- What a region that was entered at the depth `m` is left with: at no depth, a request shows in
place of the result. -/
def leftWith {α : Type} (f : Fiber) (m : Nat) (fibers : Fibers) (r : Except Interrupted α) :
    Except Interrupted α :=
  if m = 0 ∧ fibers.isRequested f = true then .error .canceled else r

@[simp] theorem leftWith_setMask {α : Type} (f : Fiber) (m n : Nat) (fibers : Fibers)
    (r : Except Interrupted α) : leftWith f m (fibers.setMask f n) r = leftWith f m fibers r := by
  simp [leftWith]

@[simp] theorem leftWith_canceled {α : Type} (f : Fiber) (m : Nat) (fibers : Fibers) :
    leftWith f m fibers (.error .canceled : Except Interrupted α) = .error .canceled :=
  ite_self _

namespace State

variable {bodies : Bodies B P} {rt : Runtime} {a : Algebra} {α : Type} {f : Fiber} {calls : Nat}
  {site : Site B a} {stack : Stack B P a α ρ} {sc : Scene B} {m : Nat}

theorem step_region (body : Token → Program B P a α) (depth : sc.fibers.mask f = m)
    (clear : sc.fibers.isCanceled f = false) :
    step bodies rt ⟨f, calls, site, .run (.uncancelable body), stack⟩ sc =
      .more ⟨f, calls, site, .run (body ⟨m + 1, m.succ_pos⟩), .cons (.region m) stack⟩
        (sc.setMask f (m + 1)) := by
  subst depth
  exact observing_of_clear clear _

theorem step_finalize (finalizer : Program B P a Unit) (depth : sc.fibers.mask f = m) :
    step bodies rt ⟨f, calls, site, .give (.error .canceled), .cons (.onCancel finalizer) stack⟩
        sc =
      .more ⟨f, calls, site, .run finalizer, .cons (.finalizing m) stack⟩
        (sc.setMask f (m + 1)) := by
  subst depth
  rfl

/-- A poll of the token that a region hands out leads back to the scene in which the region was
entered. -/
theorem step_poll_in_region (p : Program B P a α) (depth : sc.fibers.mask f = m)
    (clear : sc.fibers.isCanceled f = false) :
    step bodies rt ⟨f, calls, site, .run (.poll ⟨m + 1, m.succ_pos⟩ p), stack⟩
        (sc.setMask f (m + 1)) =
      .more ⟨f, calls, site, .run p, .cons (.unmasked (m + 1)) stack⟩ sc := by
  have entered : (sc.setMask f (m + 1)).fibers.mask f = m + 1 := Fibers.mask_setMask_self ..
  have masked : (sc.setMask f (m + 1)).fibers.isCanceled f = false := by
    apply Fibers.isCanceled_of_mask_pos
    rw [entered]
    exact m.succ_pos
  have lowered : (sc.setMask f (m + 1)).setMask f m = sc := by
    rw [Scene.setMask_setMask, Scene.setMask_eq_self depth]
  show run bodies rt f calls site (.poll ⟨m + 1, m.succ_pos⟩ p) _ _ = _
  rw [run_poll_of_own masked entered, entered, Nat.add_sub_cancel, lowered]
  exact observing_of_clear clear _

theorem step_leave (bodies : Bodies B P) (rt : Runtime) (f : Fiber) (calls m : Nat)
    (site : Site B a) (r : Except Interrupted α) (stack : Stack B P a α ρ) (sc : Scene B) :
    ∃ sc', sc'.unreported = (sc.setMask f m).unreported ∧
      step bodies rt ⟨f, calls, site, .give r, .cons (.region m) stack⟩ sc =
        .more ⟨f, calls, site, .give (leftWith f m sc.fibers r), stack⟩ sc' := by
  show ∃ sc', _ ∧ observing f calls site stack (sc.setMask f m)
    (fun sc => yield f calls site r stack sc) = _
  have shows : (sc.setMask f m).fibers.isCanceled f = true ↔
      m = 0 ∧ sc.fibers.isRequested f = true := by
    simp [Fibers.isCanceled, Fibers.isMasked, and_comm]
  cases found : (sc.setMask f m).fibers.isCanceled f with
  | true =>
    rw [observing_of_canceled found, leftWith, if_pos (shows.mp found)]
    exact ⟨(sc.setMask f m).emit .cancellationObserved site.spans, rfl, rfl⟩
  | false =>
    have hidden : ¬(m = 0 ∧ sc.fibers.isRequested f = true) := fun pending =>
      Bool.false_ne_true (found.symm.trans (shows.mpr pending))
    rw [observing_of_clear found, leftWith, if_neg hidden]
    exact ⟨sc.setMask f m, rfl, rfl⟩

end State

/-! ## Polls in a region of their own -/

/-- The frames of a region that was entered at the depth `m`, and in which a program is polled. -/
def Stack.polled {a : Algebra} {α : Type} (m : Nat) (stack : Stack B P a α ρ) : Stack B P a α ρ :=
  .cons (.unmasked (m + 1)) (.cons (.region m) stack)

namespace State

variable {bodies : Bodies B P} {rt : Runtime} {a : Algebra} {α : Type} {f : Fiber} {calls : Nat}
  {site : Site B a} {sc : Scene B} {m : Nat}

/-- A region that polls a program puts its frames on the stack, unless it is refused, and leaves the
scene alone. -/
theorem Leads.polled (p : Program B P a α) (stack : Stack B P a α ρ)
    (depth : sc.fibers.mask f = m) (clear : sc.fibers.isCanceled f = false) :
    Leads bodies rt (Away site stack)
      ⟨f, calls, site, .run (.uncancelable fun token => .poll token p), stack⟩ sc
      ⟨f, calls, site, .run p, stack.polled m⟩ sc :=
  .step (step_region _ depth clear) rfl (not_back_of_run _ _)
    (.step (step_poll_in_region p depth clear) rfl (not_back_of_run _ _) .here)

/-- The frames make of a result what the region is left with, at the depth at which it was
entered. -/
theorem Leads.leftWith (stack : Stack B P a α ρ) (r : Except Interrupted α)
    (depth : sc.fibers.mask f = m) :
    ∃ sc', sc'.unreported = sc.unreported ∧
      Leads bodies rt (Away site stack) ⟨f, calls, site, .give r, stack.polled m⟩ sc
        ⟨f, calls, site, .give (leftWith f m sc.fibers r), stack⟩ sc' := by
  have outer : ¬Back site stack ⟨f, calls, site, .give r, stack.polled m⟩ :=
    not_back_of_height (Nat.lt_add_of_pos_right (by decide : 0 < 2))
  have inner : ¬Back site stack ⟨f, calls, site, .give r, .cons (.region m) stack⟩ :=
    not_back_of_height (Nat.lt_succ_self _)
  obtain ⟨sc', same, leave⟩ :=
    step_leave bodies rt f calls m site r stack (sc.setMask f (m + 1))
  rw [Scene.setMask_setMask, Scene.setMask_eq_self depth] at same
  rw [Scene.fibers_setMask, leftWith_setMask] at leave
  exact ⟨sc', same, .step rfl rfl outer (.step leave rfl inner .here)⟩

end State

/-! ## Polls around each other -/

namespace Course

variable {bodies : Bodies B P} {rt : Runtime} {others : Nat → Scene B → Scene B}
  {c c' : Course B P ρ}

/-- Runs that are at the same point meet there again after a step. -/
theorem Same.joins (unaware : Unaware others) (same : c.Same c') :
    c.outline = c'.outline ∧
      Meets (Course.next bodies rt others) outline Same (c.next bodies rt others)
        (c'.next bodies rt others) :=
  ⟨outline_eq same.alike same.ending_eq, .here (same.next bodies rt unaware)⟩

end Course

namespace Program

variable {bodies : Bodies B P} {a : Algebra} {α : Type}

open State Course

/-- Polls with one token around each other act as one of them, whether the token works or not. -/
theorem poll_poll_actsAs (token : Token) (p : Program B P a α) :
    ActsAs bodies (.poll token (.poll token p)) (.poll token p) := by
  intro ρ rt others unaware f calls site stack sc
  refine follows_of_meets (J := Same) (fun same => same.joins unaware) ?_
  by_cases own : sc.fibers.mask f = token.depth
  · have clear : sc.fibers.isCanceled f = false := by
      apply Fibers.isCanceled_of_mask_pos
      rw [own]
      exact token.depth_pos
    -- both lower the mask in their first step, and there the token works no longer
    have lowers (q : Program B P a α) : State.step bodies rt
        ⟨f, calls, site, .run (.poll token q), stack⟩ sc =
          observing f calls site (.cons (.unmasked token.depth) stack) (sc.setMask f token.outer)
            (goOn f calls site q (.cons (.unmasked token.depth) stack)) := by
      rw [step_of_run rfl, run_poll_of_own clear own, own]
      rfl
    refine .both rfl ?_
    cases found : (sc.setMask f token.outer).fibers.isCanceled f with
    | true =>
      have canceled (q : Program B P a α) := (lowers q).trans (observing_of_canceled found _)
      rw [next_of_idle rfl (canceled _) rfl, next_of_idle rfl (canceled _) rfl]
      exact .here ⟨rfl, rfl, rfl, rfl, rfl⟩
    | false =>
      have lowered (q : Program B P a α) := (lowers q).trans (observing_of_clear found _)
      have stale : (sc.setMask f token.outer).fibers.mask f ≠ token.depth := by
        rw [Scene.fibers_setMask, Fibers.mask_setMask_self, ← token.outer_add_one]
        exact Nat.ne_of_lt (Nat.lt_succ_self _)
      rw [next_of_idle rfl (lowered _) rfl, next_of_idle rfl (lowered _) rfl]
      exact meets_left rfl (.step (step_of_stale_poll rfl found stale) rfl rfl .here)
        (.here ⟨rfl, rfl, rfl, rfl, rfl⟩)
  · cases found : sc.fibers.isCanceled f with
    | true =>
      exact meets_of_leads rfl rfl (.refused rfl found) (.refused rfl found)
        (.here ⟨rfl, rfl, rfl, rfl, rfl⟩)
    | false =>
      have once (q : Program B P a α) {t : State B P ρ}
          (leads : Leads bodies rt Quiet ⟨f, calls, site, .run q, stack⟩ sc t sc) :
          Leads bodies rt Quiet ⟨f, calls, site, .run (.poll token q), stack⟩ sc t sc :=
        .step (step_of_stale_poll rfl found own) rfl rfl leads
      exact meets_of_leads rfl rfl (once _ (once p .here)) (once p .here)
        (.here ⟨rfl, rfl, rfl, rfl, rfl⟩)

/-- Masks are put up and taken down in pairs.  A program that is polled in a region of its own,
wherever it is run and whatever others do while it waits who leave the mask of the fiber alone, is
refused if the cancellation of the fiber is requested and not put off; otherwise the region relays
the program, except that it is canceled if it is left at no depth with a request pending.  And a
token that is applied twice in a row acts as if it was applied once, in its own region and anywhere
else. -/
theorem mask_algebra (bodies : Bodies B P) {a : Algebra} {α : Type} (p : Program B P a α) :
    (∀ (ρ ρ' : Type) (rt : Runtime) (others : Nat → Scene B → Scene B), Course.Unaware others →
      ∀ f : Fiber, (∀ n (sc : Scene B), (others n sc).fibers.mask f = sc.fibers.mask f) →
        ∀ (calls : Nat) (site : Site B a) (stack : Stack B P a α ρ) (stack' : Stack B P a α ρ')
          (sc : Scene B),
          let region : Program B P a α := .uncancelable fun token => .poll token p
          let whole := course bodies rt others ⟨f, calls, site, .run region, stack⟩ sc
          let plain := course bodies rt others ⟨f, calls, site, .run p, stack'⟩ sc
          (sc.fibers.isCanceled f = true →
            Part whole f site stack region 0 1 (.error .canceled) ∧
              (whole 1).outline = (whole 0).outline) ∧
          (sc.fibers.isCanceled f = false →
            Relays f site stack stack' (leftWith f (sc.fibers.mask f)) region p whole plain)) ∧
    ∀ token : Token, ActsAs bodies (.poll token (.poll token p)) (.poll token p) := by
  refine ⟨?_, fun token => poll_poll_actsAs token p⟩
  intro ρ ρ' rt others unaware f keeps calls site stack stack' sc region whole plain
  constructor
  · intro found
    exact ⟨.refused bodies rt others rfl found, outline_refused bodies rt others rfl found⟩
  · intro clear
    refine relays unaware (Leads.polled p stack rfl clear) rfl
      (Nat.lt_add_of_pos_right (by decide : 0 < 2)) (fun _ => rfl) ?_
    intro n r part calls sc₁ alike
    -- the program has left the mask as it found it
    have depth : sc₁.fibers.mask f = sc.fibers.mask f := by
      rw [(Scene.unreported_eq_iff.mp alike).1]
      exact part.mask_eq (fun _ => rfl) keeps
    exact Leads.leftWith stack r depth

/-- The cancellation is requested during a blocking call that is polled in a region of its own.  The
call is made and ends, as it would by itself, but the region is canceled when it is left. -/
theorem polled_when_waiting :
    let f : Fiber := ⟨.numbered 0, .numbered 0⟩
    let p : Program .notes .none .largeObject Unit :=
      .suspend .blocking (Host.update fun written : List Nat => (.ok (), written ++ [1]))
    let region : Program .notes .none .largeObject Unit := .uncancelable fun token => .poll token p
    let site : Site .notes .largeObject := ⟨(), 0, []⟩
    let stack : Stack .notes .none .largeObject Unit Unit := .nil
    let others (_ : Nat) (sc : Scene .notes) := { sc with fibers := sc.fibers.cancel f }
    let whole := course Bodies.none .stepped others ⟨f, 0, site, .run region, stack⟩ (.blank {})
    let plain := course Bodies.none .stepped others ⟨f, 0, site, .run p, stack⟩ (.blank {})
    Part plain f site stack p 0 3 (.ok ()) ∧ (plain 3).scene.world = [1] ∧
      ∃ k, Part whole f site stack region 0 k (.error .canceled) ∧ (plain 3).Alike (whole k) := by
  intro f p region site stack others whole plain
  have unaware : Unaware others := unaware_cancel f
  have waited : Part plain f site stack p 0 3 (.ok ()) := by
    refine ⟨by decide, ⟨0, rfl⟩, ?_, rfl, ⟨1, rfl⟩⟩
    rintro k - lt ⟨_, _, _, back⟩
    match k with
    | 0 | 1 | 2 => cases back
  obtain ⟨relayed, -⟩ := mask_algebra (P := .none) Bodies.none p
  obtain ⟨-, relayed⟩ :=
    relayed Unit Unit .stepped others unaware f (fun _ _ => rfl) 0 site stack stack (.blank {})
  exact ⟨waited, rfl, (relayed rfl).returns 3 (.ok ()) waited⟩

end Program
end Cancelable
