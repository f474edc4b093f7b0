import Cancelable.Proofs.Behaviour
import Cancelable.Proofs.Embedding

/-!
# The laws of a monad

Values and sequences obey the laws of a monad: not as trees, but in what programs do.  Two programs
that a law makes equal put different frames on the stack, and then run the same program above them.
There the two runs are twins and take the same steps.  When the frames get a result, they come to
the same point in the same scene, for nothing looks for a cancellation between a value and the
program that is made of it.

Main statement: programs that the laws make equal behave in the same way on every stack
(`Program.monad_laws`).
-/

namespace Cancelable

variable {B : Backend} {P : Procedures} {ρ : Type}

/-! ## Twins in one scene -/

/-- Nothing but the same scene is alike. -/
def Likeness.same (B : Backend) (f : Fiber) : Likeness (.free B) f f where
  alike sc sc' := sc = sc'
  around l l' := l = l'
  around_cons := Likeness.cons_congr
  mask_eq alike := by rw [alike]
  host _ alike := by subst alike; exact ⟨rfl, rfl⟩
  emit _ around alike := by rw [around, alike]
  setMask _ alike := by rw [alike]
  cancel alike := by rw [alike]

section Twins

variable {b : Algebra} {β : Type} {f : Fiber} {site₀ : Site B b} {base base' : Stack B P b β ρ}
  {s s' : State B P ρ}

/-- The looks of twins find the same, in the same order. -/
theorem State.Twin.observations_eq (twin : Twin 0 f f Eq site₀ site₀ base base' s s')
    (away : ¬s.Back site₀ base) (sc : Scene B) : s.observations sc = s'.observations sc := by
  cases twin with
  | @mk a α site site' stack stack' calls control twin =>
    cases control with
    | run p => rfl
    | give r =>
      cases twin with
      | here => exact absurd ⟨f, _, r, rfl⟩ away
      | cons frame twin => cases frame <;> rfl
      | embedded => rfl
    | block turns code => rfl

end Twins

/-! ## One stack in place of another -/

/-- Two runs in the fiber `f` have shown the same, and are at the same point, or over, or above two
stacks `base` and `base'` at the site `site₀`. -/
inductive Joined (f : Fiber) {b : Algebra} {β : Type} (site₀ : Site B b)
    (base base' : Stack B P b β ρ) : Watched B P ρ → Watched B P ρ → Prop where
  | same {w w' : Watched B P ρ} (same : w.Same w') : Joined f site₀ base base' w w'
  | finished {w w' : Watched B P ρ} {ending : Ending ρ} (shown : w.view = w'.view)
      (ended : w.ending? = some ending) : Joined f site₀ base base' w w'
  | above {w w' : Watched B P ρ} (shown : w.view = w'.view) (pending : w.ending? = none)
      (twin : State.Twin 0 f f Eq site₀ site₀ base base' w.state w'.state)
      (away : ¬w.state.Back site₀ base) : Joined f site₀ base base' w w'

/-- Two stacks do the same with a result, and are given up in the same way. -/
structure Stack.Exchange (bodies : Bodies B P) (rt : Runtime) (others : Nat → Scene B → Scene B)
    (f : Fiber) {b : Algebra} {β : Type} (site₀ : Site B b) (base base' : Stack B P b β ρ) :
    Prop where
  abandon : ∀ sc, base.abandon f site₀ sc = base'.abandon f site₀ sc
  give : ∀ {calls : Nat} (r : Except Interrupted β) {w w' : Watched B P ρ}, w.ending? = none →
    w.view = w'.view → w.state = ⟨f, calls, site₀, .give r, base⟩ →
      w'.state = ⟨f, calls, site₀, .give r, base'⟩ →
        Meets (Watched.next bodies rt others) Watched.view (Joined f site₀ base base') w w'

namespace Stack.Exchange

variable {bodies : Bodies B P} {rt : Runtime} {others : Nat → Scene B → Scene B} {f : Fiber}
  {b : Algebra} {β : Type} {site₀ : Site B b} {base base' : Stack B P b β ρ}
  {w w' : Watched B P ρ}

/-- Twins above two such stacks meet, also where they have come back to them. -/
theorem meets (exchange : Exchange bodies rt others f site₀ base base')
    (shown : w.view = w'.view) (pending : w.ending? = none)
    (twin : State.Twin 0 f f Eq site₀ site₀ base base' w.state w'.state) :
    Meets (Watched.next bodies rt others) Watched.view (Joined f site₀ base base') w w' := by
  by_cases back : w.state.Back site₀ base
  · obtain ⟨calls, r, state, state'⟩ := twin.back back
    exact exchange.give r pending shown state state'
  · exact .here (.above shown pending twin back)

/-- Twins that are still above the stacks take the same step, and meet again, or break off. -/
theorem meets_next (exchange : Exchange bodies rt others f site₀ base base')
    (shown : w.view = w'.view) (pending : w.ending? = none)
    (twin : State.Twin 0 f f Eq site₀ site₀ base base' w.state w'.state)
    (away : ¬w.state.Back site₀ base) :
    Meets (Watched.next bodies rt others) Watched.view (Joined f site₀ base base')
      (w.next bodies rt others) (w'.next bodies rt others) := by
  -- both are in one scene, so whatever looks they take find the same
  have looks : w.state.looks w.scene = w'.state.looks w.scene := twin.looks_eq away rfl rfl
  have next : Next.Twin (.same B f) 0 site₀ site₀ base base' w.state.abandon w'.state.abandon
      (w.state.step bodies rt w.scene) (w'.state.step bodies rt w.scene) :=
    twin.step (L := .same B f) (fun _ => rfl) (Discipline.kept_free bodies) ⟨rfl, rfl⟩ rfl away
      (Control.obeys_free _) (fun _ _ => Stack.topObeys_free _) looks
  have nexts := Watched.nexts bodies rt others shown pending
    (twin.executes_eq ⟨rfl, rfl⟩ looks).symm (twin.observations_eq away w.scene)
  revert next nexts
  generalize w.state.step bodies rt w.scene = n
  generalize w'.state.step bodies rt w.scene = n'
  rintro (⟨twin', rfl⟩ | ⟨twin', rfl⟩ | ⟨panic, scenes⟩) ⟨⟨view, view'⟩, state, state'⟩
  · have pending := (congrArg View.ending? view).trans pending
    exact exchange.meets (view.trans view'.symm) pending (state ▸ state' ▸ twin')
  · have pending := (congrArg View.ending? view).trans pending
    exact exchange.meets (view.trans view'.symm) pending (state ▸ state' ▸ twin')
  · -- what is above the stacks sets the same depths when it is given up
    obtain ⟨sc, _, givenUp, givenUp', rfl⟩ := twin.abandon (L := .same B f) scenes
    rw [givenUp] at view
    rw [givenUp', ← exchange.abandon] at view'
    exact .here (.finished (view.trans view'.symm) (congrArg View.ending? view))

/-- Runs that belong together meet again after a step. -/
theorem joins (exchange : Exchange bodies rt others f site₀ base base')
    (joined : Joined f site₀ base base' w w') :
    w.view = w'.view ∧
      Meets (Watched.next bodies rt others) Watched.view (Joined f site₀ base base')
        (w.next bodies rt others) (w'.next bodies rt others) := by
  cases joined with
  | same same => exact ⟨same.view_eq, .here (.same same.next)⟩
  | finished shown ended =>
    have ended' := (congrArg View.ending? shown).symm.trans ended
    rw [Watched.next_of_over ended, Watched.next_of_over ended']
    exact ⟨shown, .here (.finished shown ended)⟩
  | above shown pending twin away => exact ⟨shown, exchange.meets_next shown pending twin away⟩

/-- Two stacks do the same with a result if they come to the same point with it. -/
theorem of_slipsTo (abandon : ∀ sc, base.abandon f site₀ sc = base'.abandon f site₀ sc)
    (slips : ∀ (calls : Nat) (r : Except Interrupted β), ∃ t : State B P ρ,
      State.SlipsTo bodies rt ⟨f, calls, site₀, .give r, base⟩ t ∧
        State.SlipsTo bodies rt ⟨f, calls, site₀, .give r, base'⟩ t) :
    Exchange bodies rt others f site₀ base base' where
  abandon := abandon
  give := by
    intro calls r w w' pending shown state state'
    obtain ⟨t, slips, slips'⟩ := slips calls r
    exact Watched.meets_same .same pending shown state slips state' slips'

end Stack.Exchange

/-! ## What pure nodes and frames do -/

namespace State.Slips

variable {bodies : Bodies B P} {rt : Runtime} {a : Algebra} {α β : Type} {f : Fiber} {calls : Nat}
  {site : Site B a}

theorem pure (x : α) (stack : Stack B P a α ρ) :
    Slips bodies rt ⟨f, calls, site, .run (.pure x), stack⟩
      ⟨f, calls, site, .give (.ok x), stack⟩ :=
  ⟨fun _ => rfl, fun _ => rfl, fun _ => rfl⟩

theorem bind (p : Program B P a α) (k : α → Program B P a β) (stack : Stack B P a β ρ) :
    Slips bodies rt ⟨f, calls, site, .run (.bind p k), stack⟩
      ⟨f, calls, site, .run p, .cons (.bind k) stack⟩ :=
  ⟨fun _ => rfl, fun _ => rfl, fun _ => rfl⟩

theorem map (p : Program B P a α) (g : α → Host B.World β) (stack : Stack B P a β ρ) :
    Slips bodies rt ⟨f, calls, site, .run (.map p g), stack⟩
      ⟨f, calls, site, .run p, .cons (.map g) stack⟩ :=
  ⟨fun _ => rfl, fun _ => rfl, fun _ => rfl⟩

/-- A sequence goes on with the program that is made of a value. -/
theorem onward (x : α) (k : α → Program B P a β) (stack : Stack B P a β ρ) :
    Slips bodies rt ⟨f, calls, site, .give (.ok x), .cons (.bind k) stack⟩
      ⟨f, calls, site, .run (k x), stack⟩ :=
  ⟨fun _ => rfl, fun _ => rfl, fun _ => rfl⟩

/-- Where there is no value, a sequence goes no further. -/
theorem past (i : Interrupted) (k : α → Program B P a β) (stack : Stack B P a β ρ) :
    Slips bodies rt ⟨f, calls, site, .give (.error i), .cons (.bind k) stack⟩
      ⟨f, calls, site, .give (.error i), stack⟩ :=
  ⟨fun _ => rfl, fun _ => rfl, fun _ => rfl⟩

theorem past_map (i : Interrupted) (g : α → Host B.World β) (stack : Stack B P a β ρ) :
    Slips bodies rt ⟨f, calls, site, .give (.error i), .cons (.map g) stack⟩
      ⟨f, calls, site, .give (.error i), stack⟩ :=
  ⟨fun _ => rfl, fun _ => rfl, fun _ => rfl⟩

end State.Slips

/-! ## Stacks that do the same -/

section Exchange

variable {bodies : Bodies B P} {rt : Runtime} {others : Nat → Scene B → Scene B} {f : Fiber}
  {a : Algebra} {α β γ : Type} {site : Site B a}

/-- A value may be taken for the program that ends with it. -/
theorem Stack.exchange_bind_pure (stack : Stack B P a α ρ) :
    Exchange bodies rt others f site (.cons (.bind .pure) stack) stack :=
  .of_slipsTo (fun _ => rfl) fun calls r => by
    cases r with
    | ok x =>
      exact ⟨_, .step (.onward x .pure stack) (.step (.pure x stack) .here), .here⟩
    | error i => exact ⟨_, .step (.past i .pure stack) .here, .here⟩

/-- Two frames of a sequence are as good as the one that does what both do. -/
theorem Stack.exchange_bind_bind (k : α → Program B P a β) (l : β → Program B P a γ)
    (stack : Stack B P a γ ρ) :
    Exchange bodies rt others f site (.cons (.bind k) (.cons (.bind l) stack))
      (.cons (.bind fun x => .bind (k x) l) stack) :=
  .of_slipsTo (fun _ => rfl) fun calls r => by
    cases r with
    | ok x =>
      exact ⟨_, .step (.onward x k _) .here,
        .step (.onward x _ stack) (.step (.bind (k x) l stack) .here)⟩
    | error i =>
      exact ⟨_, .step (.past i k _) (.step (.past i l stack) .here),
        .step (.past i _ stack) .here⟩

open State in
/-- A value may be changed by the frame, or while the program that ends with it is made. -/
theorem Stack.exchange_map (g : α → Host B.World β) (stack : Stack B P a β ρ) :
    Exchange bodies rt others f site (.cons (.map g) stack)
      (.cons (.bind fun x => .build (g x) .pure) stack) where
  abandon _ := rfl
  give := by
    intro calls r w w' pending shown state state'
    cases r with
    | error i =>
      exact Watched.meets_same .same pending shown state (.step (.past_map i g stack) .here)
        state' (.step (.past i _ stack) .here)
    | ok x =>
      refine Watched.meets_of_slipsTo pending shown state .here state'
        (.step (.onward x _ stack) .here) ?_
      intro v v' state state' pending shown
      -- the host code is run in this step by both
      have nexts := Watched.nexts bodies rt others shown pending
        (by rw [state, state']; rfl) (by rw [state, state']; rfl)
      rw [state, state'] at nexts
      refine .both shown ?_
      cases hosted : v.scene.host (g x) with
      | mk exit sc =>
        cases exit with
        | ok y =>
          simp only [State.step, State.give, resume, State.run, hosting, hosted] at nexts
          obtain ⟨⟨view, view'⟩, next, next'⟩ := nexts
          exact Watched.meets_same .same ((congrArg View.ending? view).trans pending)
            (view.trans view'.symm) next .here next' (.step (.pure y stack) .here)
        | error panic =>
          simp only [State.step, State.give, resume, State.run, hosting, hosted] at nexts
          obtain ⟨⟨view, view'⟩, -⟩ := nexts
          exact .here (.finished (view.trans view'.symm) (congrArg View.ending? view))

/-- A value may be changed by the frame, or the changed value be taken in its place. -/
theorem Stack.exchange_mapPure (g : α → β) (stack : Stack B P a β ρ) :
    Exchange bodies rt others f site (.cons (.map fun x => Host.pure (g x)) stack)
      (.cons (.bind fun x => .pure (g x)) stack) :=
  .of_slipsTo (fun _ => rfl) fun calls r => by
    cases r with
    | ok x =>
      have slips : State.Slips bodies rt
          ⟨f, calls, site, .give (.ok x), .cons (.map fun x => Host.pure (g x)) stack⟩
          ⟨f, calls, site, .give (.ok (g x)), stack⟩ :=
        ⟨fun _ => rfl, fun _ => rfl, fun _ => rfl⟩
      exact ⟨_, .step slips .here, .step (.onward x _ stack) (.step (.pure _ stack) .here)⟩
    | error i =>
      exact ⟨_, .step (.past_map i _ stack) .here, .step (.past i _ stack) .here⟩

end Exchange

/-! ## The laws -/

namespace Program

/-- Programs behave in the same way that put stacks which do the same below one program. -/
theorem behavesAs_of_exchange {bodies : Bodies B P} {a : Algebra} {α β : Type}
    {p q : Program B P a α} (m : Program B P a β)
    (above above' : {ρ : Type} → Stack B P a α ρ → Stack B P a β ρ)
    (slips : ∀ {ρ : Type} (rt : Runtime) (f : Fiber) (calls : Nat) (site : Site B a)
      (stack : Stack B P a α ρ),
        State.SlipsTo bodies rt ⟨f, calls, site, .run p, stack⟩
          ⟨f, calls, site, .run m, above stack⟩)
    (slips' : ∀ {ρ : Type} (rt : Runtime) (f : Fiber) (calls : Nat) (site : Site B a)
      (stack : Stack B P a α ρ),
        State.SlipsTo bodies rt ⟨f, calls, site, .run q, stack⟩
          ⟨f, calls, site, .run m, above' stack⟩)
    (exchange : ∀ {ρ : Type} (rt : Runtime) (others : Nat → Scene B → Scene B) (f : Fiber)
      (site : Site B a) (stack : Stack B P a α ρ),
        Stack.Exchange bodies rt others f site (above stack) (above' stack)) :
    p.BehavesAs bodies q := by
  intro ρ rt others f calls site stack sc
  have exchange := exchange rt others f site stack
  refine Meets.follows_both (fun joined => exchange.joins joined)
    (Watched.meets_of_slipsTo rfl rfl rfl (slips rt f calls site stack) rfl
      (slips' rt f calls site stack) ?_)
  intro w w' state state' pending shown
  refine exchange.meets shown pending ?_
  rw [state, state']
  exact .mk calls (.run m) .here

/-- Programs obey the laws of a monad.  A value that is followed by a program is the program made of
that value; a program that is followed by its value is that program; it does not matter how
sequences are put together; and to change the value of a program is to follow the program by the
changed value, whether the host code that changes it does more than that or not. -/
theorem monad_laws (bodies : Bodies B P) {a : Algebra} {α β γ : Type} :
    (∀ (x : α) (k : α → Program B P a β), BehavesAs bodies (.bind (.pure x) k) (k x)) ∧
    (∀ m : Program B P a α, BehavesAs bodies (.bind m .pure) m) ∧
    (∀ (m : Program B P a α) (k : α → Program B P a β) (l : β → Program B P a γ),
      BehavesAs bodies (.bind (.bind m k) l) (.bind m fun x => .bind (k x) l)) ∧
    (∀ (m : Program B P a α) (g : α → Host B.World β),
      BehavesAs bodies (.map m g) (.bind m fun x => .build (g x) .pure)) ∧
    (∀ (m : Program B P a α) (g : α → β),
      BehavesAs bodies (m.mapPure g) (.bind m fun x => .pure (g x))) := by
  refine ⟨?_, ?_, ?_, ?_, ?_⟩
  · intro x k
    exact behavesAs_of_slipsTo fun rt f calls site stack =>
      ⟨_, .step (.bind (.pure x) k stack) (.step (.pure x _)
        (.step (.onward x k stack) .here)), .here⟩
  · intro m
    exact behavesAs_of_exchange m (.cons (.bind .pure)) id
      (fun _ _ _ _ stack => .step (.bind m .pure stack) .here)
      (fun _ _ _ _ _ => .here) (fun _ _ _ _ stack => Stack.exchange_bind_pure stack)
  · intro m k l
    exact behavesAs_of_exchange m (fun stack => .cons (.bind k) (.cons (.bind l) stack))
      (.cons (.bind fun x => .bind (k x) l))
      (fun _ _ _ _ stack => .step (.bind _ l stack) (.step (.bind m k _) .here))
      (fun _ _ _ _ stack => .step (.bind m _ stack) .here)
      (fun _ _ _ _ stack => Stack.exchange_bind_bind k l stack)
  · intro m g
    exact behavesAs_of_exchange m (.cons (.map g)) (.cons (.bind fun x => .build (g x) .pure))
      (fun _ _ _ _ stack => .step (.map m g stack) .here)
      (fun _ _ _ _ stack => .step (.bind m _ stack) .here)
      (fun _ _ _ _ stack => Stack.exchange_map g stack)
  · intro m g
    exact behavesAs_of_exchange m (.cons (.map fun x => Host.pure (g x)))
      (.cons (.bind fun x => .pure (g x)))
      (fun _ _ _ _ stack => .step (.map m _ stack) .here)
      (fun _ _ _ _ stack => .step (.bind m _ stack) .here)
      (fun _ _ _ _ stack => Stack.exchange_mapPure g stack)

end Program
end Cancelable
