import Cancelable.Proofs.Finality
import Cancelable.Proofs.Lockstep
import Cancelable.Proofs.Region

/-!
# Regions that do not notice a request

The body of a region is run at a depth above zero, and as long as it applies no tokens but those of
the regions within it, the mask stays there.  Then every observation in the body is put off, so
where the cancellation of the fiber is requested at all, and when, makes no difference to the body:
it goes through the same points and carries out the same operations, no finalizer is started in it,
and it comes to the same result.  Only at the end of the region, and only if the region was entered
without a mask, does a request show.

Main statement: a region whose body applies deeper tokens only is oblivious to cancellation
(`State.region_oblivious`).
-/

namespace Cancelable

variable {B : Backend} {P : Procedures} {ρ : Type}

/-- The discipline of not looking at the request of a fiber, and of applying tokens of a depth above
`n` only. -/
def Discipline.deeper (B : Backend) (f : Fiber) (n : Nat) : Discipline B where
  code := Host.Blind f
  token token := n < token.depth

/-! ## Schedules -/

namespace Scene

/-- Request the cancellation of a fiber, or do nothing. -/
def cancelIf (sc : Scene B) (request : Bool) (f : Fiber) : Scene B :=
  if request then { sc with fibers := sc.fibers.cancel f } else sc

theorem mask_cancelIf (sc : Scene B) (request : Bool) (f g : Fiber) :
    (sc.cancelIf request f).fibers.mask g = sc.fibers.mask g := by
  cases request <;> rfl

theorem withdraw_cancelIf (sc : Scene B) (request : Bool) (f : Fiber) :
    (sc.cancelIf request f).withdraw f = sc.withdraw f := by
  cases request with
  | false => rfl
  | true =>
    refine withdraw_eq_iff.mpr ⟨?_, rfl, rfl⟩
    refine Fibers.withdraw_eq_iff.mpr ⟨?_, fun g => rfl, rfl⟩
    intro g other
    simp [cancelIf, Fibers.isRequested_cancel, other]

/-- If the same is requested in a second scene, and perhaps more, the scenes stay the same, or the
cancellation is requested in the second one. -/
theorem cancelIf_cases {sc sc' : Scene B} {request request' : Bool} {f : Fiber}
    (more : request = true → request' = true)
    (before : sc = sc' ∨ sc'.fibers.isRequested f = true) :
    sc.cancelIf request f = sc'.cancelIf request' f ∨
      (sc'.cancelIf request' f).fibers.isRequested f = true := by
  cases request' with
  | true => exact .inr (by simp [cancelIf, Fibers.isRequested_cancel])
  | false =>
    have none : request = false := Bool.eq_false_iff.mpr fun some => Bool.false_ne_true (more some)
    subst none
    exact before

end Scene

/-! ## Finalizers that are not started -/

theorem Stack.Over.finalizers_le {a b : Algebra} {α β : Type} {site₀ : Site B b}
    {base : Stack B P b β ρ} {site : Site B a} {stack : Stack B P a α ρ}
    (h : Over site₀ base site stack) : base.finalizers ≤ stack.finalizers := by
  induction h with
  | here => exact Nat.le_refl _
  | cons _ ih => exact Nat.le_add_right_of_le ih
  | embedded _ ih => exact ih

/-- As long as no cancellation is found or handed on, none comes up, and a finalizer that was not
running before is not started. -/
theorem Flows.quiet {s s' : State B P ρ} (flow : Flows s false s')
    (calm : s.control.isCanceled = false) (grown : s.stack.finalizers ≤ s'.stack.finalizers) :
    s'.control.isCanceled = false ∧ s'.stack.finalizers = s.stack.finalizers := by
  generalize unfound : false = found at flow
  cases flow with
  | stay busy plain other => exact ⟨other, rfl⟩
  | refused => cases unfound
  | refused_below => cases unfound
  | refused_outside => cases unfound
  | push frame plain noFinalizer => exact ⟨rfl, Stack.finalizers_cons_of_plain plain _⟩
  | pass frame plain same =>
    exact ⟨same.trans calm, (Stack.finalizers_cons_of_plain plain _).symm⟩
  | goOn frame plain other => exact ⟨rfl, (Stack.finalizers_cons_of_plain plain _).symm⟩
  | guard => exact ⟨rfl, rfl⟩
  | leave other => exact ⟨other, rfl⟩
  | finalize => cases calm
  | finish => exact absurd grown (Nat.not_succ_le_self _)
  | embed noFinalizer => exact ⟨rfl, rfl⟩
  | unembed => exact ⟨calm, rfl⟩

namespace State

section Schedule

variable (bodies : Bodies B P) (rt : Runtime) (f : Fiber) (inside : State B P ρ → Prop)
  (cancels : Nat → Bool) (s₁ : State B P ρ) (sc₁ : Scene B)

/-- The points that a run reaches after it has waited a number of times, as long as its states meet
a condition, and the operations it has carried out.  The cancellation of the fiber `f` is requested
while it waits, at the times given by a schedule. -/
inductive Scheduled : Nat → List (Executed B P) → State B P ρ → Scene B → Prop where
  | begun : Scheduled 0 [] s₁ sc₁
  | step {n : Nat} {ops : List (Executed B P)} {s s' : State B P ρ} {sc sc' : Scene B}
      (before : Scheduled n ops s sc) (h : s.step bodies rt sc = .more s' sc') (stays : inside s') :
      Scheduled n (ops ++ s.executes sc) s' sc'
  | wait {n : Nat} {ops : List (Executed B P)} {s s' : State B P ρ} {sc sc' : Scene B}
      (before : Scheduled n ops s sc) (h : s.step bodies rt sc = .waiting s' sc')
      (stays : inside s') : Scheduled (n + 1) ops s' (sc'.cancelIf (cancels n) f)

end Schedule

/-! ## Regions -/

section Region

variable {a : Algebra} {α : Type} (bodies : Bodies B P) (rt : Runtime) (f : Fiber)
  (calls m : Nat) (site : Site B a) (body : Token → Program B P a α) (stack : Stack B P a α ρ)
  (sc₁ : Scene B)

/-- The points from right after a region was entered at the depth `m` up to its end. -/
def Within (cancels : Nat → Bool) : Nat → List (Executed B P) → State B P ρ → Scene B → Prop :=
  Scheduled bodies rt f (State.Over site (.cons (.region m) stack)) cancels
    (entered f calls m site body stack) sc₁

/-- The body of the region has come to its result. -/
def AtExit (s : State B P ρ) : Prop :=
  ∃ calls r, s = ⟨f, calls, site, .give r, .cons (.region m) stack⟩

/-- The body of a region is oblivious to cancellation.  Under all schedules it goes through the same
points, with the same operations carried out, in scenes that are alike but for the request, and from
each of them but the last the next step is the same.  At none of them has a cancellation come up, is
a finalizer running that was not running before, or is the mask at the depth outside.  What the
region yields is the result of the body, or a cancellation exactly if one is requested then and the
region was entered without a mask. -/
structure Oblivious : Prop where
  same : ∀ cancels cancels' n ops s sc,
    Within @bodies rt f calls m site body stack sc₁ cancels n ops s sc →
      ∃ sc', Within @bodies rt f calls m site body stack sc₁ cancels' n ops s sc' ∧
        sc.withdraw f = sc'.withdraw f ∧
          (¬s.AtExit f m site stack →
            (s.step bodies rt sc).withdraw f = (s.step bodies rt sc').withdraw f)
  quiet : ∀ cancels n ops s sc,
    Within @bodies rt f calls m site body stack sc₁ cancels n ops s sc →
      s.control.isCanceled = false ∧ s.stack.finalizers = stack.finalizers ∧
        m < sc.fibers.mask f ∧ (¬s.AtExit f m site stack → s.finds sc = false)
  yields : ∀ cancels n ops calls' r sc,
    Within @bodies rt f calls m site body stack sc₁ cancels n ops
        ⟨f, calls', site, .give r, .cons (.region m) stack⟩ sc →
      ∃ sc', step bodies rt ⟨f, calls', site, .give r, .cons (.region m) stack⟩ sc =
        .more
          ⟨f, calls', site,
            .give (if sc.fibers.isRequested f ∧ m = 0 then .error .canceled else r), stack⟩ sc'

end Region

variable {a : Algebra} {α : Type} {bodies : Bodies B P} {rt : Runtime} {f : Fiber}
  {calls m : Nat} {site : Site B a} {body : Token → Program B P a α} {stack : Stack B P a α ρ}
  {sc₁ : Scene B}

/-- A step from the end of the body leaves the region. -/
theorem not_atExit_of_goesTo {s s' : State B P ρ} {sc sc' : Scene B}
    (next : (s.step bodies rt sc).GoesTo s' sc') (stays : s'.Over site (.cons (.region m) stack)) :
    ¬s.AtExit f m site stack := by
  rintro ⟨calls, r, rfl⟩
  have leaves : (step bodies rt ⟨f, calls, site, .give r, .cons (.region m) stack⟩ sc).GoesOn
      fun s' _ => s'.stack.height = stack.height :=
    goesOn_observing (fun _ => rfl) fun _ => rfl
  have height : s'.stack.height = stack.height := leaves.at next
  have grown : stack.height + 1 ≤ s'.stack.height := stays.height_le
  omega

section Sheltered

variable (kept : (Discipline.deeper B f (m + 1)).Kept bodies)
  (obeys : (body ⟨m + 1, m.succ_pos⟩).Obeys (.deeper B f (m + 1)))
  (depth : sc₁.fibers.mask f = m + 1)

/-- A token that the body applies does not bring the mask below the depth of the region. -/
theorem le_outer_of_obeys {s : State B P ρ} (obeys : s.control.Obeys (.deeper B f (m + 1)))
    {token : Token} {q : Program B P s.a s.α} (poll : s.control = .run (.poll token q)) :
    m + 1 ≤ token.outer := by
  rw [poll] at obeys
  have deep : m + 1 < token.depth := obeys.1
  have outer : token.outer + 1 = token.depth := token.outer_add_one
  omega

/-- The frame on top belongs to the body, unless the body is at its end. -/
theorem calm_of_not_atExit {b : Algebra} {β : Type} (calls' : Nat) {site' : Site B b}
    (r : Except Interrupted β) {stack' : Stack B P b β ρ}
    (above : Stack.Above (.deeper B f (m + 1)) (m + 1) site (.cons (.region m) stack) site' stack')
    (before : ¬AtExit f m site stack ⟨f, calls', site', .give r, stack'⟩) :
    stack'.Calm (.deeper B f (m + 1)) := by
  cases above with
  | here => exact absurd ⟨calls', r, rfl⟩ before
  | cons obeys high _ =>
    refine ⟨obeys, ?_⟩
    intro level looks
    have deep := high level (Frame.level?_of_looksAt? looks)
    omega
  | embedded _ _ => exact trivial

include kept obeys depth

/-- The body stays at the depth of the region or above it. -/
theorem Within.sheltered {cancels : Nat → Bool} {n : Nat} {ops : List (Executed B P)}
    {s : State B P ρ} {sc : Scene B}
    (h : Within bodies rt f calls m site body stack sc₁ cancels n ops s sc) :
    s.fiber = f ∧
      s.Sheltered (.deeper B f (m + 1)) (m + 1) site (.cons (.region m) stack)
        (sc.fibers.mask f) := by
  -- a step that does not leave the region keeps what is asked, and so does a request
  have keeps {s s' : State B P ρ} {sc sc' : Scene B} {ops : List (Executed B P)}
      (fiber : s.fiber = f)
      (sheltered : s.Sheltered (.deeper B f (m + 1)) (m + 1) site (.cons (.region m) stack)
        (sc.fibers.mask f))
      (last : Advances bodies rt s sc ops s' sc')
      (stays : s'.Over site (.cons (.region m) stack)) :
      s'.fiber = f ∧
        s'.Sheltered (.deeper B f (m + 1)) (m + 1) site (.cons (.region m) stack)
          (sc'.fibers.mask f) := by
    subst fiber
    refine ⟨last.fiber_eq, sheltered.advance kept ?_ ?_ last stays⟩
    · exact Nat.succ_lt_succ sheltered.floor_le
    · intro token q poll _
      exact le_outer_of_obeys sheltered.obeys poll
  induction h with
  | begun => exact ⟨rfl, Nat.le_of_eq depth.symm, obeys, .here⟩
  | step before next stays ih => exact keeps ih.1 ih.2 (.step next) stays
  | wait before next stays ih =>
    rw [Scene.mask_cancelIf]
    exact keeps ih.1 ih.2 (.wait next) stays

/-- Before the end of the body the next step does not depend on the request, and finds none. -/
theorem Within.alike {cancels : Nat → Bool} {n : Nat} {ops : List (Executed B P)}
    {s : State B P ρ} {sc sc' : Scene B}
    (h : Within bodies rt f calls m site body stack sc₁ cancels n ops s sc)
    (before : ¬s.AtExit f m site stack) (alike : sc.withdraw f = sc'.withdraw f) :
    Next.Alike f sc.observed (s.step bodies rt sc) (s.step bodies rt sc') := by
  obtain ⟨rfl, sheltered⟩ := h.sheltered kept obeys depth
  refine sheltered.alike rt (fun _ blind => blind) kept m.succ_pos ?_ ?_ alike
  · intro r ended
    refine calm_of_not_atExit s.calls r sheltered.above ?_
    rw [← ended]
    exact before
  · intro token q poll _
    have outer := le_outer_of_obeys sheltered.obeys poll
    omega

/-- Before its end, the body finds no cancellation. -/
theorem Within.finds_eq_false {cancels : Nat → Bool} {n : Nat} {ops : List (Executed B P)}
    {s : State B P ρ} {sc : Scene B}
    (h : Within bodies rt f calls m site body stack sc₁ cancels n ops s sc)
    (before : ¬s.AtExit f m site stack) : s.finds sc = false := by
  have unreported : (s.step bodies rt sc).scene.observed = sc.observed :=
    (h.alike kept obeys depth before rfl).2
  have reported := observed_step bodies rt s sc
  cases found : s.finds sc with
  | false => rfl
  | true =>
    rw [found, unreported] at reported
    simp at reported

/-- Under another schedule the body goes through the same points. -/
theorem Within.follow {cancels : Nat → Bool} (cancels' : Nat → Bool) {n : Nat}
    {ops : List (Executed B P)} {s : State B P ρ} {sc : Scene B}
    (h : Within bodies rt f calls m site body stack sc₁ cancels n ops s sc) :
    ∃ sc', Within bodies rt f calls m site body stack sc₁ cancels' n ops s sc' ∧
      sc.withdraw f = sc'.withdraw f := by
  induction h with
  | begun => exact ⟨sc₁, .begun, rfl⟩
  | step before next stays ih =>
    obtain ⟨sc', before', scenes⟩ := ih
    have inside := not_atExit_of_goesTo (f := f) (.inl next) stays
    have same := (Within.alike kept obeys depth before inside scenes).1
    obtain ⟨rfl, sheltered⟩ := Within.sheltered kept obeys depth before
    rw [next] at same
    obtain ⟨sc₂', next', scenes'⟩ := Next.eq_more_of_withdraw same
    refine ⟨sc₂', ?_, scenes'⟩
    have masked := Nat.lt_of_lt_of_le m.succ_pos sheltered.floor_le
    rw [← executes_of_masked masked scenes]
    exact .step before' next' stays
  | @wait n ops s s' sc sc₂ before next stays ih =>
    obtain ⟨sc', before', scenes⟩ := ih
    have inside := not_atExit_of_goesTo (f := f) (.inr next) stays
    have same := (Within.alike kept obeys depth before inside scenes).1
    rw [next] at same
    obtain ⟨sc₂', next', scenes'⟩ := Next.eq_waiting_of_withdraw same
    refine ⟨_, .wait before' next' stays, ?_⟩
    calc
      (sc₂.cancelIf (cancels n) f).withdraw f = sc₂.withdraw f := Scene.withdraw_cancelIf ..
      _ = sc₂'.withdraw f := scenes'
      _ = (sc₂'.cancelIf (cancels' n) f).withdraw f := (Scene.withdraw_cancelIf ..).symm

/-- In the body no cancellation comes up, and no finalizer is started. -/
theorem Within.quiet {cancels : Nat → Bool} {n : Nat} {ops : List (Executed B P)}
    {s : State B P ρ} {sc : Scene B}
    (h : Within bodies rt f calls m site body stack sc₁ cancels n ops s sc) :
    s.control.isCanceled = false ∧ s.stack.finalizers = stack.finalizers := by
  -- a step that does not leave the region leaves no finalizer that runs around it either
  have keeps {s s' : State B P ρ} {sc sc' : Scene B} {n : Nat} {ops : List (Executed B P)}
      (before : Within bodies rt f calls m site body stack sc₁ cancels n ops s sc)
      (next : (s.step bodies rt sc).GoesTo s' sc')
      (stays : s'.Over site (.cons (.region m) stack))
      (quiet : s.control.isCanceled = false ∧ s.stack.finalizers = stack.finalizers) :
      s'.control.isCanceled = false ∧ s'.stack.finalizers = stack.finalizers := by
    have inside : ¬s.AtExit f m site stack := not_atExit_of_goesTo next stays
    have flow : Flows s false s' :=
      before.finds_eq_false kept obeys depth inside ▸ flows_of_goesTo next
    have grown : s.stack.finalizers ≤ s'.stack.finalizers := by
      rw [quiet.2]
      exact stays.finalizers_le
    obtain ⟨calm, kept⟩ := flow.quiet quiet.1 grown
    exact ⟨calm, kept.trans quiet.2⟩
  induction h with
  | begun => exact ⟨rfl, rfl⟩
  | step before next stays ih => exact keeps before (.inl next) stays ih
  | wait before next stays ih => exact keeps before (.inr next) stays ih

end Sheltered

/-- At the end of a region a request shows if there was no mask outside. -/
theorem step_atExit (bodies : Bodies B P) (rt : Runtime) (f : Fiber) (calls m : Nat)
    (site : Site B a) (r : Except Interrupted α) (stack : Stack B P a α ρ) (sc : Scene B) :
    ∃ sc', step bodies rt ⟨f, calls, site, .give r, .cons (.region m) stack⟩ sc =
      .more
        ⟨f, calls, site,
          .give (if sc.fibers.isRequested f ∧ m = 0 then .error .canceled else r), stack⟩ sc' := by
  show ∃ sc', observing f calls site stack (sc.setMask f m)
    (fun sc => yield f calls site r stack sc) = _
  have shows : (sc.setMask f m).fibers.isCanceled f = true ↔
      sc.fibers.isRequested f = true ∧ m = 0 := by
    cases m <;> simp [Fibers.isCanceled, Fibers.isMasked]
  cases found : (sc.setMask f m).fibers.isCanceled f with
  | true =>
    rw [observing_of_canceled found, if_pos (shows.mp found)]
    exact ⟨_, rfl⟩
  | false =>
    have hidden : ¬(sc.fibers.isRequested f = true ∧ m = 0) := by
      intro requested
      exact Bool.false_ne_true (found.symm.trans (shows.mpr requested))
    rw [observing_of_clear found, if_neg hidden]
    exact ⟨_, rfl⟩

/-- A region that is entered at the depth `m` is oblivious to cancellation, if its body looks at the
request of the fiber nowhere and applies tokens of a depth above its own only, as the regions within
it hand out, and if neither the backend nor any procedure does otherwise. -/
theorem region_oblivious {sc : Scene B} (kept : (Discipline.deeper B f (m + 1)).Kept bodies)
    (obeys : (body ⟨m + 1, m.succ_pos⟩).Obeys (.deeper B f (m + 1)))
    (depth : sc.fibers.mask f = m) (clear : sc.fibers.isCanceled f = false) :
    step bodies rt ⟨f, calls, site, .run (.uncancelable body), stack⟩ sc =
        .more (entered f calls m site body stack) (sc.setMask f (m + 1)) ∧
      Oblivious bodies rt f calls m site body stack (sc.setMask f (m + 1)) := by
  have deeper : (sc.setMask f (m + 1)).fibers.mask f = m + 1 := by simp
  refine ⟨?_, ?_, ?_, ?_⟩
  · subst depth
    show observing f calls site stack sc _ = _
    rw [observing_of_clear clear]
    rfl
  · intro cancels cancels' n ops s sc' within
    obtain ⟨sc'', within', scenes⟩ := within.follow kept obeys deeper cancels'
    refine ⟨sc'', within', scenes, ?_⟩
    intro before
    exact (within.alike kept obeys deeper before scenes).1
  · intro cancels n ops s sc' within
    obtain ⟨calm, idle⟩ := within.quiet kept obeys deeper
    have high := (within.sheltered kept obeys deeper).2.floor_le
    exact ⟨calm, idle, high, within.finds_eq_false kept obeys deeper⟩
  · intro cancels n ops calls' r sc' _
    exact step_atExit bodies rt f calls' m site r stack sc'

/-- The body of a region waits for a blocking call.  Whether or not the cancellation is requested
meanwhile, it carries out the same operations and comes to the same result; the region yields that
result in the one case, and a cancellation in the other. -/
theorem region_oblivious_when_waiting :
    let f : Fiber := ⟨.numbered 0, .numbered 0⟩
    let site : Site .notes .connection := ⟨(), 0, []⟩
    let body (_ : Token) : Program .notes .none .connection Unit :=
      .bind (.suspend .blocking (Host.update fun written : List Nat => (.ok (), written ++ [1])))
        fun () => .note 2
    let sc : Scene .notes := .blank {}
    let reached (cancels : Bool) := Within Bodies.none .stepped f 0 0 site body
      (.nil : Stack .notes .none .connection Unit Unit) (sc.setMask f 1) fun _ => cancels
    let ended : State .notes .none Unit :=
      ⟨f, 1, site, .give (.ok ()), .cons (.region 0) .nil⟩
    (∃ ops sc sc', reached true 1 ops ended sc ∧ reached false 1 ops ended sc') ∧
      ∀ cancels, ∃ ops sc sc', reached cancels 1 ops ended sc ∧
        ended.step Bodies.none .stepped sc =
          .more ⟨f, 1, site, .give (if cancels then .error .canceled else .ok ()), .nil⟩ sc' := by
  intro f site body sc reached ended
  have kept : (Discipline.deeper .notes f 1).Kept (P := .none) Bodies.none :=
    ⟨fun _ _ _ _ _ _ => rfl, fun _ _ _ _ => rfl, fun _ _ _ _ => rfl, nofun⟩
  have obeys : (body ⟨1, Nat.one_pos⟩).Obeys (.deeper .notes f 1) :=
    ⟨fun _ _ _ _ => rfl, fun _ _ _ _ _ => rfl⟩
  have clear : sc.fibers.isCanceled f = false := rfl
  have oblivious : Oblivious Bodies.none .stepped f 0 0 site body
      (.nil : Stack .notes .none .connection Unit Unit) (sc.setMask f 1) :=
    (region_oblivious kept obeys rfl clear).2
  have points (cancels : Bool) :
      ∃ ops sc, reached cancels 1 ops ended sc ∧ sc.fibers.isRequested f = cancels := by
    -- a request changes the scene, so the steps are computed for each of the two schedules
    cases cancels <;>
      exact ⟨_, _, Scheduled.begun
        |>.step rfl (.cons .here) |>.step rfl (.cons .here) |>.wait rfl (.cons .here)
        |>.step rfl (.cons .here) |>.step rfl .here |>.step rfl .here, rfl⟩
  constructor
  · obtain ⟨ops, sc, within, _⟩ := points true
    obtain ⟨sc', within', _⟩ := oblivious.same _ (fun _ => false) _ _ _ _ within
    exact ⟨ops, sc, sc', within, within'⟩
  · intro cancels
    obtain ⟨ops, sc, within, requested⟩ := points cancels
    obtain ⟨sc', yields⟩ := oblivious.yields _ _ _ _ _ _ within
    refine ⟨ops, sc, sc', within, ?_⟩
    simpa [requested] using yields

end State
end Cancelable
