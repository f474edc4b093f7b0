import Cancelable.Proofs.Twins

/-!
# Programs that do not see a request

Take two scenes that differ at most in whether the cancellation of a fiber has been requested.
Host code that does not look at the request does the same in both.  So does a step of a program in
that fiber, as long as each observation it makes is put off by a mask: it goes on at the same point,
carries out the same operation and leaves two such scenes again.

Main statement: a point of a run above the mask depth zero has the same successors, whether or not
the cancellation of its fiber has been requested (`State.Advances.follow`).
-/

namespace Cancelable

variable {B : Backend} {P : Procedures} {ρ : Type}

/-! ## Withdrawing a request -/

namespace Fibers

/-- The table without the request of a fiber. -/
def withdraw (fs : Fibers) (f : Fiber) : Fibers :=
  { fs with requests := fs.requests.erase f.request }

variable {fs fs' : Fibers} {f g : Fiber}

theorem isRequested_withdraw (fs : Fibers) (f g : Fiber) :
    (fs.withdraw f).isRequested g = (f.request != g.request && fs.isRequested g) := by
  rw [Bool.eq_iff_iff]
  simp [isRequested, withdraw, Std.ExtTreeSet.contains_erase]

theorem withdraw_setMask (fs : Fibers) (f g : Fiber) (n : Nat) :
    (fs.setMask g n).withdraw f = (fs.withdraw f).setMask g n := by
  unfold setMask withdraw
  split <;> rfl

/-- Tables are alike but for a request if they show the same of everything else. -/
theorem withdraw_eq_iff :
    fs.withdraw f = fs'.withdraw f ↔
      (∀ g, f.request ≠ g.request → fs.isRequested g = fs'.isRequested g) ∧
        (∀ g, fs.mask g = fs'.mask g) ∧ fs.numbers = fs'.numbers := by
  constructor
  · intro alike
    refine ⟨?_, ?_, ?_⟩
    · intro g other
      have shown : (fs.withdraw f).isRequested g = (fs'.withdraw f).isRequested g := by rw [alike]
      rw [isRequested_withdraw, isRequested_withdraw, bne_iff_ne.mpr other] at shown
      exact shown
    · intro g
      have shown : (fs.withdraw f).mask g = (fs'.withdraw f).mask g := by rw [alike]
      exact shown
    · have shown : (fs.withdraw f).numbers = (fs'.withdraw f).numbers := by rw [alike]
      exact shown
  · rintro ⟨requested, depth, count⟩
    refine ext_of_view ?_ depth count
    intro g
    rw [isRequested_withdraw, isRequested_withdraw]
    by_cases own : f.request = g.request
    · simp [own]
    · rw [requested g own]

theorem withdraw_cancel (alike : fs.withdraw f = fs'.withdraw f) (g : Fiber) :
    (fs.cancel g).withdraw f = (fs'.cancel g).withdraw f := by
  rw [withdraw_eq_iff] at alike ⊢
  rcases alike with ⟨requested, depth, count⟩
  refine ⟨?_, depth, count⟩
  intro h other
  rw [isRequested_cancel, isRequested_cancel, requested h other]

theorem withdraw_cancelAll (alike : fs.withdraw f = fs'.withdraw f) (l : List Fiber) :
    (fs.cancelAll l).withdraw f = (fs'.cancelAll l).withdraw f := by
  induction l generalizing fs fs' with
  | nil => exact alike
  | cons g rest ih => exact ih (withdraw_cancel alike g)

end Fibers

/-- Host code that does not look at the request of a fiber. -/
def Host.Blind (f : Fiber) {W α : Type} (code : Host W α) : Prop :=
  ∀ fs fs' w, fs.withdraw f = fs'.withdraw f → code fs w = code fs' w

/-- Under a discipline, host code does not look at the request of a fiber. -/
def Discipline.BlindTo (D : Discipline B) (f : Fiber) : Prop :=
  ∀ {α : Type} (code : Host B.World α), D.code code → code.Blind f

namespace Scene

variable {f : Fiber} {sc sc' : Scene B} {α : Type}

/-- The scene without the request of a fiber. -/
def withdraw (sc : Scene B) (f : Fiber) : Scene B :=
  { sc with fibers := sc.fibers.withdraw f }

theorem withdraw_setMask (sc : Scene B) (f g : Fiber) (n : Nat) :
    (sc.setMask g n).withdraw f = (sc.withdraw f).setMask g n := by
  simp only [withdraw, setMask, Fibers.withdraw_setMask]

/-- Scenes are alike if their fibers are, and they are the same otherwise. -/
theorem withdraw_eq_iff :
    sc.withdraw f = sc'.withdraw f ↔
      sc.fibers.withdraw f = sc'.fibers.withdraw f ∧ sc.world = sc'.world ∧
        sc.events = sc'.events := by
  rw [withdraw, withdraw, Scene.mk.injEq]

theorem withdraw_withdraw (sc : Scene B) (f : Fiber) :
    (sc.withdraw f).withdraw f = sc.withdraw f := by
  refine withdraw_eq_iff.mpr ⟨?_, rfl, rfl⟩
  refine Fibers.withdraw_eq_iff.mpr ⟨?_, fun g => rfl, rfl⟩
  intro g other
  show (sc.fibers.withdraw f).isRequested g = _
  rw [Fibers.isRequested_withdraw, bne_iff_ne.mpr other, Bool.true_and]

theorem mask_of_alike (alike : sc.withdraw f = sc'.withdraw f) (g : Fiber) :
    sc.fibers.mask g = sc'.fibers.mask g :=
  (Fibers.withdraw_eq_iff.mp (withdraw_eq_iff.mp alike).1).2.1 g

theorem setMask_alike (alike : sc.withdraw f = sc'.withdraw f) (g : Fiber) (n : Nat) :
    (sc.setMask g n).withdraw f = (sc'.setMask g n).withdraw f := by
  rw [withdraw_setMask, withdraw_setMask, alike]

theorem emit_alike (alike : sc.withdraw f = sc'.withdraw f) (h : Happening)
    (spans : List Algebra) : (sc.emit h spans).withdraw f = (sc'.emit h spans).withdraw f := by
  rcases withdraw_eq_iff.mp alike with ⟨fibers, world, events⟩
  exact withdraw_eq_iff.mpr ⟨fibers, world, congrArg (List.cons (⟨h, spans⟩ : Event)) events⟩

theorem cancel_alike (alike : sc.withdraw f = sc'.withdraw f) (g : Fiber) :
    withdraw { sc with fibers := sc.fibers.cancel g } f =
      withdraw { sc' with fibers := sc'.fibers.cancel g } f := by
  rcases withdraw_eq_iff.mp alike with ⟨fibers, world, events⟩
  exact withdraw_eq_iff.mpr ⟨Fibers.withdraw_cancel fibers g, world, events⟩

/-- Host code that does not look at the request does the same in scenes that are alike. -/
theorem host_alike {code : Host B.World α} (blind : code.Blind f)
    (alike : sc.withdraw f = sc'.withdraw f) :
    (sc.host code).1 = (sc'.host code).1 ∧
      (sc.host code).2.withdraw f = (sc'.host code).2.withdraw f := by
  rcases withdraw_eq_iff.mp alike with ⟨fibers, world, events⟩
  have same : code sc.fibers sc.world = code sc'.fibers sc'.world := by
    rw [blind sc.fibers sc'.fibers sc.world fibers, world]
  unfold host
  rw [same]
  exact ⟨rfl, withdraw_eq_iff.mpr ⟨Fibers.withdraw_cancelAll fibers _, rfl, events⟩⟩

end Scene

/-- Scenes that are alike but for the request of a fiber are alike to programs that do not look at
it. -/
def Likeness.withdrawn {D : Discipline B} {f : Fiber} (blind : D.BlindTo f) : Likeness D f f where
  alike sc sc' := sc.withdraw f = sc'.withdraw f
  around l l' := l = l'
  around_cons a same := congrArg (a :: ·) same
  mask_eq alike := Scene.mask_of_alike alike f
  host obeys alike := Scene.host_alike (blind _ obeys) alike
  emit h same alike := by
    rw [same]
    exact Scene.emit_alike alike h _
  setMask n alike := Scene.setMask_alike alike f n
  cancel alike := Scene.cancel_alike alike f

/-! ## Steps -/

def Next.withdraw (f : Fiber) : Next B P ρ → Next B P ρ
  | .more s sc => .more s (sc.withdraw f)
  | .waiting s sc => .waiting s (sc.withdraw f)
  | .ended r sc => .ended r (sc.withdraw f)
  | .panicked p sc => .panicked p (sc.withdraw f)

theorem Next.eq_more_of_withdraw {f : Fiber} {s : State B P ρ} {sc : Scene B} {next : Next B P ρ}
    (same : (Next.more s sc).withdraw f = next.withdraw f) :
    ∃ sc', next = .more s sc' ∧ sc.withdraw f = sc'.withdraw f := by
  cases next with
  | more t sc' =>
    rcases Next.more.inj same with ⟨rfl, scenes⟩
    exact ⟨sc', rfl, scenes⟩
  | _ => cases same

theorem Next.eq_waiting_of_withdraw {f : Fiber} {s : State B P ρ} {sc : Scene B}
    {next : Next B P ρ} (same : (Next.waiting s sc).withdraw f = next.withdraw f) :
    ∃ sc', next = .waiting s sc' ∧ sc.withdraw f = sc'.withdraw f := by
  cases next with
  | waiting t sc' =>
    rcases Next.waiting.inj same with ⟨rfl, scenes⟩
    exact ⟨sc', rfl, scenes⟩
  | _ => cases same

/-- Two steps lead to the same but for a request, and the first of them leaves `n` cancellations
found. -/
def Next.Alike (f : Fiber) (n : Nat) (next next' : Next B P ρ) : Prop :=
  next.withdraw f = next'.withdraw f ∧ next.scene.observed = n

theorem Frame.level?_of_looksAt? {a : Algebra} {α β : Type} {frame : Frame B P a α β} {level : Nat}
    (looks : frame.looksAt? = some level) : frame.level? = some level := by
  cases frame with
  | region l => exact looks
  | _ => cases looks

/-- The top frame of a stack keeps a discipline, and looks for a cancellation only under a mask. -/
def Stack.Calm (D : Discipline B) {a : Algebra} {α : Type} : Stack B P a α ρ → Prop
  | .cons frame _ => frame.Obeys D ∧ ∀ level, frame.looksAt? = some level → 0 < level
  | _ => True

/-- What was put on top of a base under a discipline, above a positive floor, is calm if the base
is. -/
theorem Stack.Above.calm {D : Discipline B} {floor : Nat} {a b : Algebra} {α β : Type}
    {site₀ : Site B b} {base : Stack B P b β ρ} {site : Site B a} {stack : Stack B P a α ρ}
    (h : Above D floor site₀ base site stack) (positive : 0 < floor) (calm : base.Calm D) :
    stack.Calm D := by
  cases h with
  | here => exact calm
  | cons obeys high _ =>
    refine ⟨obeys, ?_⟩
    intro level looks
    exact Nat.lt_of_lt_of_le positive (high level (Frame.level?_of_looksAt? looks))
  | embedded _ _ => exact trivial

theorem Stack.Calm.topObeys {D : Discipline B} {a : Algebra} {α : Type} {stack : Stack B P a α ρ}
    (calm : stack.Calm D) : stack.TopObeys D := by
  cases stack with
  | cons frame rest => exact calm.1
  | _ => exact trivial

namespace State

variable {D : Discipline B} {f : Fiber} {sc sc' : Scene B} {b : Algebra} {γ : Type} {floor : Nat}
  {site₀ : Site B b} {base : Stack B P b γ ρ} {bodies : Bodies B P}

/-- A step does not depend on the request otherwise than through what its looks find. -/
theorem step_alike {s : State B P ρ} (rt : Runtime) (blind : D.BlindTo s.fiber)
    (kept : D.Kept bodies) (obeys : s.control.Obeys D)
    (top : ∀ r, s.control = .give r → s.stack.TopObeys D)
    (alike : sc.withdraw s.fiber = sc'.withdraw s.fiber) (looks : s.looks sc = s.looks sc') :
    (s.step bodies rt sc).withdraw s.fiber = (s.step bodies rt sc').withdraw s.fiber := by
  have next : Next.Likened (.withdrawn blind) (s.step bodies rt sc) (s.step bodies rt sc') :=
    step_likened rt _ Iff.rfl rfl kept obeys top alike looks
  revert next
  generalize s.step bodies rt sc = n
  generalize s.step bodies rt sc' = n'
  rintro (⟨t, own, alike⟩ | ⟨t, own, alike⟩ | ⟨r, alike⟩ | ⟨panic, alike⟩)
  · rw [into_eq_self own]
    exact congrArg (Next.more t) alike
  · rw [into_eq_self own]
    exact congrArg (Next.waiting t) alike
  · exact congrArg (Next.ended r) alike
  · exact congrArg (Next.panicked panic) alike

/-- Under a mask no step finds a cancellation, unless a poll or the end of a region takes the mask
away. -/
theorem finds_of_masked {s : State B P ρ} (masked : 0 < sc.fibers.mask s.fiber)
    (calm : ∀ r, s.control = .give r → s.stack.Calm D)
    (holds : ∀ token q, s.control = .run (.poll token q) →
      sc.fibers.mask s.fiber = token.depth → 0 < token.outer) : s.finds sc = false := by
  rcases s with ⟨f, calls, site, control, stack⟩
  cases control with
  | run p =>
    refine finds_of_clear (Fibers.isCanceled_of_mask_pos masked) ?_
    cases p with
    | canceled => exact Fibers.isCanceled_of_mask_pos masked
    | poll token q =>
      by_cases own : sc.fibers.mask f = token.depth
      · have outer : 0 < (sc.fibers.setMask f token.outer).mask f := by
          rw [Fibers.mask_setMask_self]
          exact holds token q rfl own
        simp [Program.findsAgain, Fibers.isCanceled_of_mask_pos outer]
      · simp [Program.findsAgain, own]
    | _ => rfl
  | give r =>
    cases stack with
    | cons frame rest =>
      cases frame with
      | region level =>
        refine Fibers.isCanceled_of_mask_pos ?_
        rw [Fibers.mask_setMask_self]
        exact (calm r rfl).2 level rfl
      | _ => rfl
    | _ => rfl
  | block turns code => rfl

/-- No step of a program on top of a stack depends on the request, as long as the mask stays above
zero. -/
theorem Sheltered.alike {s : State B P ρ} (rt : Runtime)
    (blind : D.BlindTo s.fiber) (kept : D.Kept bodies) (positive : 0 < floor)
    (h : s.Sheltered D floor site₀ base (sc.fibers.mask s.fiber))
    (calm : ∀ r, s.control = .give r → s.stack.Calm D)
    (holds : ∀ token q, s.control = .run (.poll token q) →
      sc.fibers.mask s.fiber = token.depth → 0 < token.outer)
    (alike : sc.withdraw s.fiber = sc'.withdraw s.fiber) :
    Next.Alike s.fiber sc.observed (s.step bodies rt sc) (s.step bodies rt sc') := by
  have depth : sc'.fibers.mask s.fiber = sc.fibers.mask s.fiber :=
    (Scene.mask_of_alike alike s.fiber).symm
  have masked : 0 < sc.fibers.mask s.fiber := Nat.lt_of_lt_of_le positive h.floor_le
  have nothing : s.finds sc = false := finds_of_masked masked calm holds
  have nothing' : s.finds sc' = false := by
    rw [← depth] at masked holds
    exact finds_of_masked masked calm holds
  have looks : s.looks sc = s.looks sc' := by
    rw [looks_of_finds nothing, looks_of_finds nothing']
  refine ⟨step_alike rt blind kept h.obeys ?_ alike looks, ?_⟩
  · intro r gives
    exact (calm r gives).topObeys
  · rw [observed_step, nothing]
    rfl

/-- What others do to one scene they may do to a scene that is alike. -/
theorem spared_follow {sc₁ : Scene B} (spared : sc.Spared f sc₁)
    (alike : sc.withdraw f = sc'.withdraw f) :
    ∃ sc₁', sc'.Spared f sc₁' ∧ sc₁.withdraw f = sc₁'.withdraw f := by
  rcases Fibers.withdraw_eq_iff.mp (Scene.withdraw_eq_iff.mp alike).1 with ⟨requested, depth, _⟩
  -- everything is left as in the first scene, but for the request, which is left as it was
  cases own : sc'.fibers.isRequested f with
  | true =>
    refine ⟨{ sc₁ with fibers := sc₁.fibers.cancel f }, ⟨?_, ?_⟩, ?_⟩
    · exact spared.mask_eq.trans (depth f)
    · intro g was
      rw [Fibers.isRequested_cancel]
      by_cases same : f.request = g.request
      · simp [same]
      · rw [← requested g same] at was
        rw [spared.isRequested g was, Bool.or_true]
    · refine Scene.withdraw_eq_iff.mpr ⟨?_, rfl, rfl⟩
      refine Fibers.withdraw_eq_iff.mpr ⟨?_, fun g => rfl, rfl⟩
      intro g other
      rw [Fibers.isRequested_cancel, beq_eq_false_iff_ne.mpr other, Bool.false_or]
  | false =>
    refine ⟨sc₁.withdraw f, ⟨?_, ?_⟩, ?_⟩
    · exact spared.mask_eq.trans (depth f)
    · intro g was
      have other : f.request ≠ g.request := by
        intro same
        have shown : sc'.fibers.isRequested g = sc'.fibers.isRequested f := by
          unfold Fibers.isRequested
          rw [same]
        rw [shown, own] at was
        cases was
      rw [← requested g other] at was
      show (sc₁.fibers.withdraw f).isRequested g = true
      rw [Fibers.isRequested_withdraw, spared.isRequested g was, bne_iff_ne.mpr other]
      rfl
    · exact (Scene.withdraw_withdraw sc₁ f).symm

theorem executes_of_masked {s : State B P ρ} (masked : 0 < sc.fibers.mask s.fiber)
    (alike : sc.withdraw s.fiber = sc'.withdraw s.fiber) : s.executes sc' = s.executes sc := by
  have masked' : 0 < sc'.fibers.mask s.fiber := by
    rw [← Scene.mask_of_alike alike s.fiber]
    exact masked
  unfold executes
  rw [Fibers.isCanceled_of_mask_pos masked, Fibers.isCanceled_of_mask_pos masked']

/-- From a point above the depth zero the run goes on in the same way in a scene that is alike. -/
theorem Advances.follow {s s' : State B P ρ} {rt : Runtime} {sc₁ : Scene B}
    {ops : List (Executed B P)} (last : Advances bodies rt s sc ops s' sc₁)
    (masked : 0 < sc.fibers.mask s.fiber)
    (same : (s.step bodies rt sc).withdraw s.fiber = (s.step bodies rt sc').withdraw s.fiber)
    (alike : sc.withdraw s.fiber = sc'.withdraw s.fiber) :
    ∃ sc₁', Advances bodies rt s sc' ops s' sc₁' ∧
      sc₁.withdraw s.fiber = sc₁'.withdraw s.fiber := by
  cases last with
  | step next =>
    rw [next] at same
    rcases Next.eq_more_of_withdraw same with ⟨sc₂, next', scenes⟩
    refine ⟨sc₂, ?_, scenes⟩
    rw [← executes_of_masked masked alike]
    exact .step next'
  | wait next =>
    rw [next] at same
    rcases Next.eq_waiting_of_withdraw same with ⟨sc₂, next', scenes⟩
    exact ⟨sc₂, .wait next', scenes⟩
  | others spared =>
    rcases spared_follow spared alike with ⟨sc₂, spared', scenes⟩
    exact ⟨sc₂, .others spared', scenes⟩

end State

end Cancelable
