import Cancelable.Proofs.Lockstep

/-!
# Finalizers

A finalizer is started one level above the depth at which the cancellation it answers was found, so
that the cancellation does not reach it.  From then on the mask of its fiber stays above zero, and
no observation in it finds a cancellation, unless a token lapses: a token of depth one, handed out
by a region that was left or suspended before, is applied where the finalizer, too, has the mask at
depth one.  A finalizer in which no token lapses does not depend on the request at all.

Main statements: a finalizer is left undisturbed exactly if no token lapses in it
(`State.finalizer_undisturbed_iff`), and none does if it applies its own tokens only
(`State.finalizer_undisturbed`).
-/

namespace Cancelable

variable {B : Backend} {P : Procedures} {ρ : Type}

/-- The discipline of not looking at the request of a fiber. -/
def Discipline.blind (B : Backend) (f : Fiber) : Discipline B where
  code := Host.Blind f
  token _ := True

/-- The discipline of applying, besides, tokens of a depth above one only.  The regions of a program
that is run under a mask hand out no others. -/
def Discipline.ownTokens (B : Backend) (f : Fiber) : Discipline B where
  code := Host.Blind f
  token token := 1 < token.depth

namespace State

/-! ## Disturbances -/

/-- An observation made in the next step finds a cancellation. -/
def Refused (bodies : Bodies B P) (rt : Runtime) (s : State B P ρ) (sc : Scene B) : Prop :=
  sc.observed < (s.step bodies rt sc).scene.observed

/-- At the mask depth `m`, a token is about to bring the mask to zero. -/
def Lapses (s : State B P ρ) (m : Nat) : Prop :=
  ∃ token q, s.control = .run (.poll token q) ∧ token.depth = 1 ∧ m = 1

section Undisturbed

variable (bodies : Bodies B P) (rt : Runtime) (f : Fiber) {b : Algebra} {β : Type}
  (site₀ : Site B b) (base : Stack B P b β ρ) (s₁ : State B P ρ) (sc₁ : Scene B)

/-- The points that a run reaches while it stays above a stack. -/
def Reaches (ops : List (Executed B P)) (s : State B P ρ) (sc : Scene B) : Prop :=
  Progress @bodies rt (State.Over site₀ base) s₁ sc₁ ops s sc

/-- A program on top of a stack goes undisturbed by cancellation: until it ends the fiber stays
masked, no observation finds a cancellation, and it carries out the operations, goes through the
states and leaves the scenes that it would without the request. -/
structure Undisturbed : Prop where
  masked : ∀ ops s sc, Reaches @bodies rt site₀ base s₁ sc₁ ops s sc → 0 < sc.fibers.mask f
  unrefused : ∀ ops s sc, Reaches @bodies rt site₀ base s₁ sc₁ ops s sc →
    ¬s.Refused bodies rt sc
  same : ∀ ops s sc₂,
    (∃ sc, Reaches @bodies rt site₀ base s₁ sc₁ ops s sc ∧ sc.withdraw f = sc₂) ↔
      ∃ sc, Reaches @bodies rt site₀ base s₁ (sc₁.withdraw f) ops s sc ∧ sc.withdraw f = sc₂

end Undisturbed

variable {bodies : Bodies B P} {rt : Runtime} {b : Algebra} {β : Type} {site₀ : Site B b}
  {base : Stack B P b β ρ} {s₁ : State B P ρ} {sc₁ : Scene B} {D : Discipline B}

/-! ## No token lapses -/

theorem outer_pos_of_not_lapses {s : State B P ρ} {m : Nat} (masked : 0 < m) (safe : ¬s.Lapses m)
    {token : Token} {q : Program B P s.a s.α} (poll : s.control = .run (.poll token q))
    (own : m = token.depth) : 0 < token.outer := by
  have depth : token.outer + 1 = token.depth := token.outer_add_one
  by_cases last : token.depth = 1
  · exact absurd ⟨token, q, poll, last, own.trans last⟩ safe
  · omega

/-- As long as no token lapses, the mask and all that is remembered of it stay above zero. -/
theorem Reaches.sheltered {f : Fiber} {ops : List (Executed B P)} {s : State B P ρ} {sc : Scene B}
    (fiber : s₁.fiber = f) (kept : D.Kept bodies)
    (free : ∀ token : Token, 1 < token.depth → D.token token)
    (started : s₁.Sheltered D 1 site₀ base (sc₁.fibers.mask f))
    (safe : ∀ ops s sc, Reaches bodies rt site₀ base s₁ sc₁ ops s sc →
      s.Sheltered D 1 site₀ base (sc.fibers.mask f) → ¬s.Lapses (sc.fibers.mask f))
    (h : Reaches bodies rt site₀ base s₁ sc₁ ops s sc) :
    s.Sheltered D 1 site₀ base (sc.fibers.mask f) := by
  induction h with
  | here _ => exact started
  | next before last grown ih =>
    -- a region entered now is above a mask, so its token is one that the discipline admits
    have sheltered := ih started safe
    have apart := safe _ _ _ before sheltered
    obtain rfl := (Progress.fiber_eq before).trans fiber
    refine sheltered.advance kept (free _ (Nat.succ_lt_succ sheltered.floor_le)) ?_ last grown
    intro token q poll own
    exact outer_pos_of_not_lapses sheltered.floor_le apart poll own

/-! ## The same run without the request -/

section Follow

variable {f : Fiber} {sc₁' : Scene B} (fiber : s₁.fiber = f)
  (alike : sc₁.withdraw f = sc₁'.withdraw f)
  (same : ∀ ops s sc sc', Reaches bodies rt site₀ base s₁ sc₁ ops s sc →
    sc.withdraw f = sc'.withdraw f →
      0 < sc.fibers.mask f ∧
        (s.step bodies rt sc).withdraw f = (s.step bodies rt sc').withdraw f)

include fiber alike same

/-- Where the steps of a run do not depend on the request, the run can be made without it. -/
theorem Reaches.follow {ops : List (Executed B P)} {s : State B P ρ} {sc : Scene B}
    (h : Reaches bodies rt site₀ base s₁ sc₁ ops s sc) :
    ∃ sc', Reaches bodies rt site₀ base s₁ sc₁' ops s sc' ∧ sc.withdraw f = sc'.withdraw f := by
  induction h with
  | here grown => exact ⟨sc₁', .here grown, alike⟩
  | next before last grown ih =>
    -- the step is the same in both scenes, and others may do the same to both
    rcases ih alike same with ⟨sc', reached, scenes⟩
    rcases same _ _ _ sc' before scenes with ⟨masked, steps⟩
    have own := (Progress.fiber_eq before).trans fiber
    rw [← own] at masked steps scenes
    rcases last.follow masked steps scenes with ⟨sc'', last', scenes'⟩
    rw [own] at scenes'
    exact ⟨sc'', .next reached last' grown, scenes'⟩

theorem Reaches.followed {ops : List (Executed B P)} {s : State B P ρ} {sc' : Scene B}
    (h : Reaches bodies rt site₀ base s₁ sc₁' ops s sc') :
    ∃ sc, Reaches bodies rt site₀ base s₁ sc₁ ops s sc ∧ sc.withdraw f = sc'.withdraw f := by
  induction h with
  | here grown => exact ⟨sc₁, .here grown, alike⟩
  | next before last grown ih =>
    -- the point with the request tells that the fiber is masked, also at the point without it
    rcases ih alike with ⟨sc, reached, scenes⟩
    rcases same _ _ _ _ reached scenes with ⟨masked, steps⟩
    rw [Scene.mask_of_alike scenes f] at masked
    have own := (Progress.fiber_eq before).trans fiber
    rw [← own] at masked steps scenes
    rcases last.follow masked steps.symm scenes.symm with ⟨sc'', last', scenes'⟩
    rw [own] at scenes'
    exact ⟨sc'', .next reached last' grown, scenes'.symm⟩

end Follow

/-- A run that stays above the depth zero, and in which no token lapses, is undisturbed. -/
theorem undisturbed_of_sheltered {f : Fiber} (fiber : s₁.fiber = f) (blind : D.BlindTo f)
    (kept : D.Kept bodies) (calm : base.Calm D)
    (sheltered : ∀ ops s sc, Reaches bodies rt site₀ base s₁ sc₁ ops s sc →
      s.Sheltered D 1 site₀ base (sc.fibers.mask f) ∧ ¬s.Lapses (sc.fibers.mask f)) :
    Undisturbed bodies rt f site₀ base s₁ sc₁ := by
  -- a step from a point that is reached is the same in all scenes that are alike
  have steps (ops s sc sc') (h : Reaches bodies rt site₀ base s₁ sc₁ ops s sc)
      (alike : sc.withdraw f = sc'.withdraw f) :
      Next.Alike f sc.observed (s.step bodies rt sc) (s.step bodies rt sc') := by
    rcases sheltered ops s sc h with ⟨high, safe⟩
    have own : s.fiber = f := (Progress.fiber_eq h).trans fiber
    subst own
    refine high.alike rt blind kept Nat.one_pos ?_ ?_ alike
    · intro r _
      exact high.above.calm Nat.one_pos calm
    · intro token q poll depth
      exact outer_pos_of_not_lapses high.floor_le safe poll depth
  have same (ops s sc sc') (h : Reaches bodies rt site₀ base s₁ sc₁ ops s sc)
      (alike : sc.withdraw f = sc'.withdraw f) :
      0 < sc.fibers.mask f ∧
        (s.step bodies rt sc).withdraw f = (s.step bodies rt sc').withdraw f :=
    ⟨(sheltered ops s sc h).1.floor_le, (steps ops s sc sc' h alike).1⟩
  have withdrawn : sc₁.withdraw f = (sc₁.withdraw f).withdraw f :=
    (Scene.withdraw_withdraw sc₁ f).symm
  refine ⟨fun ops s sc h => (sheltered ops s sc h).1.floor_le, ?_, ?_⟩
  · -- a step that is the same without the request has found no cancellation
    intro ops s sc h refused
    have count := (steps ops s sc sc h rfl).2
    exact Nat.lt_irrefl _ (Nat.lt_of_lt_of_eq refused count)
  · intro ops s sc₂
    constructor
    · rintro ⟨sc, h, rfl⟩
      rcases h.follow fiber withdrawn same with ⟨sc', h', scenes⟩
      exact ⟨sc', h', scenes.symm⟩
    · rintro ⟨sc', h', rfl⟩
      exact h'.followed fiber withdrawn same

/-! ## Finalizers -/

section Finalizer

variable {a : Algebra} {α : Type} {f : Fiber} {site : Site B a} {finalizer : Program B P a Unit}

/-- The point where a finalizer has just been started, at the mask depth `m`. -/
def finalizerStarted (f : Fiber) (calls : Nat) (site : Site B a) (finalizer : Program B P a Unit)
    (rest : Stack B P a α ρ) (m : Nat) : State B P ρ :=
  ⟨f, calls, site, .run finalizer, .cons (.finalizing m) rest⟩

theorem sheltered_finalizerStarted {D : Discipline B} (obeys : finalizer.Obeys D) (calls : Nat)
    (rest : Stack B P a α ρ) (sc : Scene B) :
    (finalizerStarted f calls site finalizer rest (sc.fibers.mask f)).Sheltered D 1 site
      (.cons (.finalizing (sc.fibers.mask f)) rest)
      ((sc.setMask f (sc.fibers.mask f + 1)).fibers.mask f) := by
  refine ⟨?_, obeys, .here⟩
  simp only [Scene.fibers_setMask, Fibers.mask_setMask_self]
  exact Nat.le_add_left 1 _

/-- A program that was canceled starts its finalizer one level deeper.  Let neither the finalizer
nor the backend nor any procedure look at the request of the fiber.  Until the finalizer ends it is
undisturbed, then, exactly if no token lapses: the fiber stays masked, no observation finds a
cancellation, and the finalizer carries out what it would carry out if no request were pending. -/
theorem finalizer_undisturbed_iff (kept : (Discipline.blind B f).Kept bodies)
    (obeys : finalizer.Obeys (.blind B f)) (calls : Nat) (rest : Stack B P a α ρ) (sc : Scene B) :
    let base : Stack B P a Unit ρ := .cons (.finalizing (sc.fibers.mask f)) rest
    let started := finalizerStarted f calls site finalizer rest (sc.fibers.mask f)
    let deeper := sc.setMask f (sc.fibers.mask f + 1)
    step bodies rt ⟨f, calls, site, .give (.error .canceled), .cons (.onCancel finalizer) rest⟩ sc =
        .more started deeper ∧
      (Undisturbed bodies rt f site base started deeper ↔
        ∀ ops s sc', Reaches bodies rt site base started deeper ops s sc' →
          ¬s.Lapses (sc'.fibers.mask f)) := by
  intro base started deeper
  refine ⟨rfl, ?_, ?_⟩
  · -- a token that lapses brings the mask to zero, within the finalizer
    rintro undisturbed ops s sc' reached ⟨token, q, poll, last, depth⟩
    obtain rfl : s.fiber = f := Progress.fiber_eq reached
    obtain ⟨control, sc'', next, lowered⟩ :=
      step_of_own_poll bodies rt poll (depth.trans last.symm)
    have grown : State.Over site base s := Progress.last reached
    have masked := undisturbed.masked _ _ sc'' (reached.next (.step next) (.cons grown))
    have outer : token.outer + 1 = token.depth := token.outer_add_one
    omega
  · intro safe
    refine undisturbed_of_sheltered rfl (fun _ blind => blind) kept ⟨trivial, nofun⟩ ?_
    intro ops s sc' reached
    refine ⟨?_, safe ops s sc' reached⟩
    exact reached.sheltered rfl kept (fun _ _ => trivial)
      (sheltered_finalizerStarted obeys calls rest sc) fun ops s sc' reached _ =>
        safe ops s sc' reached

/-- A finalizer that applies no tokens but its own, or tokens of a depth above one, is undisturbed.
Here its own tokens are those that its regions hand out to it. -/
theorem finalizer_undisturbed (kept : (Discipline.ownTokens B f).Kept bodies)
    (obeys : finalizer.Obeys (.ownTokens B f)) (calls : Nat) (rest : Stack B P a α ρ)
    (sc : Scene B) :
    Undisturbed bodies rt f site (.cons (.finalizing (sc.fibers.mask f)) rest)
      (finalizerStarted f calls site finalizer rest (sc.fibers.mask f))
      (sc.setMask f (sc.fibers.mask f + 1)) := by
  -- a token that keeps the discipline is too deep to lapse
  have deep {s : State B P ρ} {m : Nat} (sheltered : s.Sheltered (.ownTokens B f) 1 site
      (.cons (.finalizing (sc.fibers.mask f)) rest) m) : ¬s.Lapses m := by
    rintro ⟨token, q, poll, last, _⟩
    have obeys := sheltered.obeys
    rw [poll] at obeys
    have above : 1 < token.depth := obeys.1
    omega
  refine undisturbed_of_sheltered rfl (fun _ code => code) kept ⟨trivial, nofun⟩ ?_
  intro ops s sc' reached
  have sheltered := reached.sheltered rfl kept (fun _ above => above)
    (sheltered_finalizerStarted obeys calls rest sc) fun _ _ _ _ sheltered => deep sheltered
  exact ⟨sheltered, deep sheltered⟩

end Finalizer

/-- No token lapses in a finalizer that polls in a region of its own. -/
theorem not_lapses_in_own_region :
    let f : Fiber := ⟨.numbered 0, .numbered 0⟩
    let sc : Scene .notes := .blank (({} : Fibers).cancel f)
    let site : Site .notes .connection := ⟨(), 0, []⟩
    let finalizer : Program .notes .none .connection Unit :=
      .uncancelable fun token => .poll token (.note 0)
    let base : Stack .notes .none .connection Unit Unit := .cons (.finalizing 0) .nil
    ∀ ops s sc', Reaches Bodies.none .stepped site base
      (finalizerStarted f 0 site finalizer .nil 0) (sc.setMask f 1) ops s sc' →
        ¬s.Lapses (sc'.fibers.mask f) := by
  intro f sc site finalizer base
  -- the thunk that writes looks at no fiber, and there are no procedures
  have note_blind : Host.Blind f (Host.modify fun written : List Nat => written ++ [0]) :=
    fun _ _ _ _ => rfl
  have kept : (Discipline.blind .notes f).Kept (P := .none) Bodies.none :=
    ⟨fun _ _ _ _ _ _ => rfl, fun _ _ _ _ => rfl, fun _ _ _ _ => rfl, nofun⟩
  have kept_own : (Discipline.ownTokens .notes f).Kept (P := .none) Bodies.none :=
    ⟨fun _ _ _ _ _ _ => rfl, fun _ _ _ _ => rfl, fun _ _ _ _ => rfl, nofun⟩
  have obeys_own : finalizer.Obeys (.ownTokens .notes f) := fun token deep => ⟨deep, note_blind⟩
  have obeys : finalizer.Obeys (.blind .notes f) := fun token _ => ⟨trivial, note_blind⟩
  have undisturbed : Undisturbed Bodies.none .stepped f site base
      (finalizerStarted f 0 site finalizer .nil 0) (sc.setMask f 1) :=
    finalizer_undisturbed kept_own obeys_own 0 .nil sc
  exact (finalizer_undisturbed_iff kept obeys 0 .nil sc).2.mp undisturbed

/-- A finalizer that applies the token of the region around it is disturbed, if a poll has suspended
the region: the finalizer is run at depth one, like the body of the region, so the token lapses and
the finalizer ends canceled before it has carried out anything. -/
theorem finalizer_disturbed :
    let f : Fiber := ⟨.numbered 0, .numbered 0⟩
    let sc : Scene .notes := .blank {}
    let site : Site .notes .connection := ⟨(), 0, []⟩
    let body (token : Token) : Program .notes .none .connection Unit :=
      .poll token (.onCancel .canceled (.poll token (.note 0)))
    let finalizer : Program .notes .none .connection Unit := .poll ⟨1, Nat.one_pos⟩ (.note 0)
    let rest : Stack .notes .none .connection Unit Unit :=
      .cons (.unmasked 1) (.cons (.region 0) .nil)
    let point := (start f () (.uncancelable body) sc.fibers).after Bodies.none .inline 4 sc
    point.1 = ⟨f, 0, site, .give (.error .canceled), .cons (.onCancel finalizer) rest⟩ ∧
      ¬Undisturbed Bodies.none .inline f site (.cons (.finalizing 0) rest)
        (finalizerStarted f 0 site finalizer rest 0) (point.2.setMask f 1) := by
  intro f sc site body finalizer rest point
  refine ⟨rfl, fun undisturbed => ?_⟩
  have refused : (finalizerStarted f 0 site finalizer rest 0).Refused Bodies.none .inline
      (point.2.setMask f 1) := by
    unfold Refused
    decide
  exact undisturbed.unrefused [] _ _ (.here .here) refused

end State
end Cancelable
