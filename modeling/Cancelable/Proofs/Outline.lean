import Cancelable.Proofs.Behaviour
import Cancelable.Proofs.Embedding

/-!
# Outlines

The outline of a run is what there is to see of it apart from the looks for a cancellation and from
what is reported: the operations carried out, the fibers and the world, the waits and the end.  Two
programs act in the same way if on every stack their runs have the same outlines, in the same order.
Others may do what they like while the runs wait, as long as that does not depend on the reports.

Programs that put different frames on the stack, and then run one program above them, act in the
same way if the frames may stand in for each other: whatever result they get, both lead to the same
point by steps that carry out nothing and leave the outline alone.

Main statement: programs that run one program above frames which may stand in for each other act in
the same way (`Program.actsAs_of_standsFor`).
-/

namespace Cancelable

variable {B : Backend} {P : Procedures} {ρ : Type}

/-! ## What there is to see -/

/-- What there is to see of a run, looks and reports aside. -/
structure Outline (B : Backend) (P : Procedures) (ρ : Type) : Type 1 where
  operations : List (Executed B P)
  scene : Scene B
  waits : Nat
  ending? : Option (Ending ρ)

namespace Course

def outline (c : Course B P ρ) : Outline B P ρ :=
  ⟨c.operations, c.scene.unreported, c.waits, c.ending?⟩

variable {bodies : Bodies B P} {rt : Runtime} {others : Nat → Scene B → Scene B}
  {c c' : Course B P ρ}

theorem outline_eq (alike : c.Alike c') (ending : c.ending? = c'.ending?) :
    c.outline = c'.outline := by
  rw [outline, outline, alike.operations_eq, alike.scene, alike.waits_eq, ending]

/-- To request a cancellation does not depend on the reports. -/
theorem unaware_cancel (f : Fiber) :
    Unaware fun _ (sc : Scene B) => { sc with fibers := sc.fibers.cancel f } := by
  intro n sc sc' alike
  obtain ⟨fibers, world⟩ := Scene.unreported_eq_iff.mp alike
  exact Scene.unreported_eq_iff.mpr ⟨congrArg (·.cancel f) fibers, world⟩

theorem course_eq_orbit (s : State B P ρ) (sc : Scene B) (n : Nat) :
    course bodies rt others s sc n =
      orbit (next bodies rt others) { state := s, scene := sc } n := by
  induction n with
  | zero => rfl
  | succ n ih => exact congrArg (next bodies rt others) ih

theorem course_add (s : State B P ρ) (sc : Scene B) (m n : Nat) :
    course bodies rt others s sc (m + n) =
      orbit (next bodies rt others) (course bodies rt others s sc m) n := by
  rw [course_eq_orbit, course_eq_orbit, orbit_add]

end Course

/-- On every stack, wherever they are run, in every scene, on every runtime and whatever others do
while they wait, the two programs have the same outline, as long as what others do does not depend
on the reports. -/
def Program.ActsAs (bodies : Bodies B P) {a : Algebra} {α : Type} (p q : Program B P a α) : Prop :=
  ∀ (ρ : Type) (rt : Runtime) (others : Nat → Scene B → Scene B), Course.Unaware others →
    ∀ (f : Fiber) (calls : Nat) (site : Site B a) (stack : Stack B P a α ρ) (sc : Scene B),
      let run (p : Program B P a α) := course bodies rt others ⟨f, calls, site, .run p, stack⟩ sc
      Follows Course.outline (run p) (run q) ∧ Follows Course.outline (run q) (run p)

/-! ## Steps that carry out nothing -/

/-- Steps that carry out nothing lead from a state in a scene to another one.  `sort` says of each
what may be asked of it: of the state from which it is taken, and of the scenes before and after. -/
inductive State.Leads (bodies : Bodies B P) (rt : Runtime)
    (sort : State B P ρ → Scene B → Scene B → Prop) :
    State B P ρ → Scene B → State B P ρ → Scene B → Prop where
  | here {s : State B P ρ} {sc : Scene B} : Leads bodies rt sort s sc s sc
  | step {s t u : State B P ρ} {sc sc₁ sc₂ : Scene B} (h : s.step bodies rt sc = .more t sc₁)
      (idle : s.executes sc = []) (fits : sort s sc sc₁)
      (rest : Leads @bodies rt sort t sc₁ u sc₂) : Leads bodies rt sort s sc u sc₂

/-- The outline is left alone. -/
def State.Quiet (_ : State B P ρ) (sc sc' : Scene B) : Prop :=
  sc'.unreported = sc.unreported

namespace State.Leads

variable {bodies : Bodies B P} {rt : Runtime} {sort sort' : State B P ρ → Scene B → Scene B → Prop}
  {s t u : State B P ρ} {sc sc₁ sc₂ : Scene B}

theorem mono (weaken : ∀ {s sc sc'}, sort s sc sc' → sort' s sc sc')
    (h : Leads bodies rt sort s sc t sc₁) : Leads bodies rt sort' s sc t sc₁ := by
  induction h with
  | here => exact .here
  | step h idle fits _ ih => exact .step h idle (weaken fits) ih

theorem trans (h : Leads bodies rt sort s sc t sc₁) (k : Leads bodies rt sort t sc₁ u sc₂) :
    Leads bodies rt sort s sc u sc₂ := by
  induction h with
  | here => exact k
  | step h idle fits _ ih => exact .step h idle fits (ih k)

theorem quiet (h : Leads bodies rt Quiet s sc t sc₁) : sc₁.unreported = sc.unreported := by
  induction h with
  | here => rfl
  | step _ _ fits _ ih => exact ih.trans fits

/-- A refused operation comes to the cancellation at once. -/
theorem refused {a : Algebra} {α : Type} {f : Fiber} {calls : Nat} {site : Site B a}
    {p : Program B P a α} {stack : Stack B P a α ρ} (operation : p.isOperation = true)
    (refused : sc.fibers.isCanceled f = true) :
    Leads bodies rt Quiet ⟨f, calls, site, .run p, stack⟩ sc
      ⟨f, calls, site, .give (.error .canceled), stack⟩
      (sc.emit .cancellationObserved site.spans) :=
  .step (run_of_canceled operation refused) (executes_of_canceled refused) rfl .here

end State.Leads

namespace Course

variable {bodies : Bodies B P} {rt : Runtime} {others : Nat → Scene B → Scene B}
  {c c' : Course B P ρ} {J : Course B P ρ → Course B P ρ → Prop} {s t t' : State B P ρ}
  {sc sc' : Scene B} {sort : State B P ρ → Scene B → Scene B → Prop}

theorem next_of_idle (pending : c.ending? = none)
    (h : c.state.step bodies rt c.scene = .more t sc) (idle : c.state.executes c.scene = []) :
    c.next bodies rt others = { c with state := t, scene := sc } := by
  rw [next_of_pending pending, h]
  simp [follow, note, State.does, idle]

/-- A run follows steps that carry out nothing, and on its way takes no others. -/
theorem orbit_of_leads (others : Nat → Scene B → Scene B) (pending : c.ending? = none)
    (leads : State.Leads bodies rt sort c.state c.scene t sc) :
    ∃ k, orbit (next bodies rt others) c k = { c with state := t, scene := sc } ∧
      ∀ l, l < k → ∃ sc', sort (orbit (next bodies rt others) c l).state
        (orbit (next bodies rt others) c l).scene sc' := by
  generalize state : c.state = s at leads
  generalize scene : c.scene = sc₀ at leads
  induction leads generalizing c with
  | here => exact ⟨0, by rw [← state, ← scene]; rfl, nofun⟩
  | @step s t u sc₀ sc₁ sc₂ h idle fits _ ih =>
    subst state scene
    obtain ⟨k, later, onTheWay⟩ := ih (c := { c with state := t, scene := sc₁ }) pending rfl rfl
    have stepped : c.next bodies rt others = _ := next_of_idle pending h idle
    refine ⟨k + 1, ?_, ?_⟩
    · rw [← orbit_next, stepped]
      exact later
    · intro l lt
      cases l with
      | zero => exact ⟨sc₁, fits⟩
      | succ l =>
        rw [← orbit_next, stepped]
        exact onTheWay l (Nat.lt_of_succ_lt_succ lt)

/-- A quiet step may be taken before runs meet. -/
theorem meets_left (pending : c.ending? = none)
    (leads : State.Leads bodies rt State.Quiet c.state c.scene t sc)
    (h : Meets (next bodies rt others) outline J { c with state := t, scene := sc } c') :
    Meets (next bodies rt others) outline J c c' := by
  generalize state : c.state = s at leads
  generalize scene : c.scene = sc₀ at leads
  induction leads generalizing c with
  | here =>
    subst state scene
    exact h
  | @step s t u sc₀ sc₁ sc₂ step idle quiet _ ih =>
    subst state scene
    have stepped : c.next bodies rt others = _ := next_of_idle pending step idle
    refine .left ?_ ?_
    · rw [stepped]
      exact outline_eq ⟨rfl, rfl, quiet⟩ rfl
    · rw [stepped]
      exact ih pending h rfl rfl

/-- Runs meet if quiet steps lead to where they meet. -/
theorem meets_of_leads (pending : c.ending? = none) (pending' : c'.ending? = none)
    (leads : State.Leads bodies rt State.Quiet c.state c.scene t sc)
    (leads' : State.Leads bodies rt State.Quiet c'.state c'.scene t' sc')
    (h : Meets (next bodies rt others) outline J { c with state := t, scene := sc }
      { c' with state := t', scene := sc' }) :
    Meets (next bodies rt others) outline J c c' :=
  meets_left pending leads (meets_left pending' leads' h.symm).symm

end Course

/-! ## One stack in place of another -/

section StandsFor

variable {f : Fiber} {b : Algebra} {β : Type} {site₀ : Site B b} {base base' : Stack B P b β ρ}

/-- Two runs in the fiber `f` have the same outline, and are at the same point, or over, or above
two stacks `base` and `base'` at the site `site₀`. -/
inductive Course.Abreast (f : Fiber) (site₀ : Site B b) (base base' : Stack B P b β ρ) :
    Course B P ρ → Course B P ρ → Prop where
  | same {c c' : Course B P ρ} (same : c.Same c') : Abreast f site₀ base base' c c'
  | finished {c c' : Course B P ρ} {ending : Ending ρ} (shown : c.outline = c'.outline)
      (ended : c.ending? = some ending) : Abreast f site₀ base base' c c'
  | above {c c' : Course B P ρ} (paired : c.Paired 0 f Eq site₀ site₀ base base' c')
      (away : ¬c.state.Back site₀ base) : Abreast f site₀ base base' c c'

/-- Whatever result two stacks get, in scenes that differ in what was reported only, both lead to
the same point by quiet steps; and they are given up in the same way. -/
structure Stack.StandsFor (bodies : Bodies B P) (rt : Runtime) (f : Fiber) (site₀ : Site B b)
    (base base' : Stack B P b β ρ) : Prop where
  abandon : ∀ sc, base.abandon f site₀ sc = base'.abandon f site₀ sc
  leads : ∀ (calls : Nat) (r : Except Interrupted β) (sc sc' : Scene B),
    ∃ (t : State B P ρ) (sc₁ sc₁' : Scene B),
      State.Leads bodies rt State.Quiet ⟨f, calls, site₀, .give r, base⟩ sc t sc₁ ∧
        State.Leads bodies rt State.Quiet ⟨f, calls, site₀, .give r, base'⟩ sc' t sc₁'

namespace Stack.StandsFor

variable {bodies : Bodies B P} {rt : Runtime} {others : Nat → Scene B → Scene B}
  {c c' : Course B P ρ}

/-- Twins above two such stacks meet, also where they have come back to them. -/
theorem meets (standsFor : StandsFor bodies rt f site₀ base base')
    (paired : c.Paired 0 f Eq site₀ site₀ base base' c') :
    Meets (Course.next bodies rt others) Course.outline (Course.Abreast f site₀ base base')
      c c' := by
  by_cases back : c.state.Back site₀ base
  · obtain ⟨calls, r, state, state'⟩ := paired.twin.back back
    obtain ⟨t, sc, sc', leads, leads'⟩ := standsFor.leads calls r c.scene c'.scene
    have scenes : sc.unreported = sc'.unreported :=
      leads.quiet.trans (paired.alike.scene.trans leads'.quiet.symm)
    have leads : State.Leads bodies rt State.Quiet c.state c.scene t sc := by
      rw [state]
      exact leads
    have leads' : State.Leads bodies rt State.Quiet c'.state c'.scene t sc' := by
      rw [state']
      exact leads'
    refine Course.meets_of_leads paired.pending paired.pending' leads leads' (.here (.same ?_))
    exact ⟨rfl, paired.pending.trans paired.pending'.symm, paired.alike.operations_eq,
      paired.alike.waits_eq, scenes⟩
  · exact .here (.above paired back)

/-- Runs that are abreast meet again after a step. -/
theorem joins (unaware : Course.Unaware others)
    (standsFor : StandsFor bodies rt f site₀ base base')
    (abreast : c.Abreast f site₀ base base' c') :
    c.outline = c'.outline ∧
      Meets (Course.next bodies rt others) Course.outline (Course.Abreast f site₀ base base')
        (c.next bodies rt others) (c'.next bodies rt others) := by
  cases abreast with
  | same same =>
    exact ⟨Course.outline_eq same.alike same.ending_eq, .here (.same (same.next bodies rt unaware))⟩
  | finished shown ended =>
    have ended' := (congrArg Outline.ending? shown).symm.trans ended
    rw [Course.next_of_over ended, Course.next_of_over ended']
    exact ⟨shown, .here (.finished shown ended)⟩
  | above paired away =>
    refine ⟨Course.outline_eq paired.alike (paired.pending.trans paired.pending'.symm), ?_⟩
    rcases paired.next bodies rt rt unaware away (fun _ => rfl) ⟨rfl, rfl⟩ Likeness.cons_congr with
      next | ⟨operations, waits, ⟨panic, ended, ended'⟩, sc, sc', scene, scene', alike⟩
    · exact standsFor.meets next
    · -- what was above the stacks has been given up, and then the stacks are
      have given :
          (base.abandon f site₀ sc).unreported = (base'.abandon f site₀ sc').unreported := by
        rw [standsFor.abandon]
        exact (Likeness.unreported f Eq Likeness.cons_congr).abandon site₀ base' alike
      rw [← scene, ← scene'] at given
      exact .here (.finished (Course.outline_eq ⟨operations, waits, given⟩
        (ended.trans ended'.symm)) ended)

end Stack.StandsFor

end StandsFor

/-! ## Programs above frames that stand in for each other -/

namespace Program

variable {bodies : Bodies B P} {a : Algebra} {α β : Type} {p q : Program B P a α}

theorem follows_of_meets {rt : Runtime} {others : Nat → Scene B → Scene B} {s s' : State B P ρ}
    {sc : Scene B} {J : Course B P ρ → Course B P ρ → Prop}
    (joins : ∀ {c c'}, J c c' → c.outline = c'.outline ∧
      Meets (Course.next bodies rt others) Course.outline J (c.next bodies rt others)
        (c'.next bodies rt others))
    (h : Meets (Course.next bodies rt others) Course.outline J { state := s, scene := sc }
      { state := s', scene := sc }) :
    Follows Course.outline (course bodies rt others s sc) (course bodies rt others s' sc) ∧
      Follows Course.outline (course bodies rt others s' sc) (course bodies rt others s sc) := by
  rw [funext (Course.course_eq_orbit s sc), funext (Course.course_eq_orbit s' sc)]
  exact h.follows_both joins

/-- Programs act in the same way that come to the same point, or run one program above frames that
stand in for each other, after quiet steps. -/
theorem actsAs_of_standsFor (m : Program B P a β)
    (above above' : {ρ : Type} → Stack B P a α ρ → Stack B P a β ρ)
    (leads : ∀ {ρ : Type} (rt : Runtime) (f : Fiber) (calls : Nat) (site : Site B a)
      (stack : Stack B P a α ρ) (sc : Scene B),
        (∃ t sc₁, State.Leads bodies rt State.Quiet ⟨f, calls, site, .run p, stack⟩ sc t sc₁ ∧
          State.Leads bodies rt State.Quiet ⟨f, calls, site, .run q, stack⟩ sc t sc₁) ∨
        ∃ sc₁, State.Leads bodies rt State.Quiet ⟨f, calls, site, .run p, stack⟩ sc
            ⟨f, calls, site, .run m, above stack⟩ sc₁ ∧
          State.Leads bodies rt State.Quiet ⟨f, calls, site, .run q, stack⟩ sc
            ⟨f, calls, site, .run m, above' stack⟩ sc₁)
    (standsFor : ∀ {ρ : Type} (rt : Runtime) (f : Fiber) (site : Site B a)
      (stack : Stack B P a α ρ), Stack.StandsFor bodies rt f site (above stack) (above' stack)) :
    p.ActsAs bodies q := by
  intro ρ rt others unaware f calls site stack sc
  have standsFor := standsFor rt f site stack
  refine follows_of_meets (fun abreast => standsFor.joins unaware abreast) ?_
  rcases leads rt f calls site stack sc with ⟨t, sc₁, leads, leads'⟩ | ⟨sc₁, leads, leads'⟩
  · exact Course.meets_of_leads rfl rfl leads leads' (.here (.same ⟨rfl, rfl, rfl, rfl, rfl⟩))
  · refine Course.meets_of_leads rfl rfl leads leads' (standsFor.meets ?_)
    exact ⟨rfl, rfl, .mk calls (.run m) .here, rfl, rfl, rfl⟩

end Program
end Cancelable
