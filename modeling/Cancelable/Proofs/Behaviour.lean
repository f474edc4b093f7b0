import Cancelable.Proofs.Looks
import Cancelable.Proofs.Polls

/-!
# Behaviour

Two programs behave in the same way if, on whatever stack they are run, all that there is to see of
the one run is to be seen of the other, in the same order: the operations carried out, what the
looks for a cancellation find, the scene, the waits and the end.  How many steps that takes is not
to be seen.  A step that carries out nothing, looks for nothing and leaves the scene alone may be
missing in the other run.

To compare two runs it is enough to know how they go on from points that belong together, until they
meet at such points again: either run may take some quiet steps by itself first, but only finitely
many.

Main statements: runs that meet again and again show the same (`Meets.follows_both`); a machine
comes to the same end with programs that behave in the same way (`Program.BehavesAs.run_iff`), and
no operation behaves as a value does (`Program.not_behavesAs_operation`).
-/

namespace Cancelable

universe u v

variable {B : Backend} {P : Procedures} {ρ : Type}

/-! ## Systems that show something -/

/-- What comes after a number of steps. -/
def orbit {W : Type u} (next : W → W) (w : W) : Nat → W
  | 0 => w
  | n + 1 => next (orbit next w n)

theorem orbit_add {W : Type u} (next : W → W) (w : W) (m n : Nat) :
    orbit next (orbit next w m) n = orbit next w (m + n) := by
  induction n with
  | zero => rfl
  | succ n ih => exact congrArg next ih

theorem orbit_next {W : Type u} (next : W → W) (w : W) (n : Nat) :
    orbit next (next w) n = orbit next w (n + 1) := by
  rw [Nat.add_comm]
  exact orbit_add next w 1 n

/-- Whatever the one sequence shows, the other one shows too, and in the same order. -/
def Follows {W : Type u} {V : Type v} (view : W → V) (run run' : Nat → W) : Prop :=
  ∃ φ : Nat → Nat, (∀ m n, m ≤ n → φ m ≤ φ n) ∧ ∀ n, view (run' (φ n)) = view (run n)

/-- Two points come to points that belong together in finitely many steps: each may take quiet steps
by itself, and both may take a step where they show the same. -/
inductive Meets {W : Type u} {V : Type v} (next : W → W) (view : W → V) (J : W → W → Prop) :
    W → W → Prop where
  | here {w w' : W} (h : J w w') : Meets next view J w w'
  | left {w w' : W} (quiet : view (next w) = view w) (h : Meets next view J (next w) w') :
      Meets next view J w w'
  | right {w w' : W} (quiet : view (next w') = view w') (h : Meets next view J w (next w')) :
      Meets next view J w w'
  | both {w w' : W} (same : view w = view w') (h : Meets next view J (next w) (next w')) :
      Meets next view J w w'

namespace Meets

variable {W : Type u} {V : Type v} {next : W → W} {view : W → V} {J : W → W → Prop} {w w' : W}

theorem symm (h : Meets next view J w w') : Meets next view (fun x y => J y x) w' w := by
  induction h with
  | here h => exact .here h
  | left quiet _ ih => exact .right quiet ih
  | right quiet _ ih => exact .left quiet ih
  | both same _ ih => exact .both same.symm ih

section Joins

variable (joins : ∀ {x y}, J x y → view x = view y ∧ Meets next view J (next x) (next y))

include joins

theorem view_eq (h : Meets next view J w w') : view w = view w' := by
  induction h with
  | here h => exact (joins h).1
  | left quiet _ ih => exact quiet.symm.trans ih
  | right quiet _ ih => exact ih.trans quiet
  | both same _ _ => exact same

/-- If the one takes a step, the other one comes to meet it in some number of steps. -/
theorem catchUp (h : Meets next view J w w') :
    ∃ n, Meets next view J (next w) (orbit next w' n) := by
  induction h with
  | here h => exact ⟨1, (joins h).2⟩
  | left _ h _ => exact ⟨0, h⟩
  | @right w w' _ _ ih =>
    obtain ⟨n, meets⟩ := ih
    exact ⟨n + 1, orbit_next next w' n ▸ meets⟩
  | both _ h _ => exact ⟨1, h⟩

/-- What meets again and again, where points belong together, shows the same. -/
theorem follows (h : Meets next view J w w') : Follows view (orbit next w) (orbit next w') := by
  have further (n m : Nat) (meets : Meets next view J (orbit next w n) (orbit next w' m)) :
      ∃ m', m ≤ m' ∧ Meets next view J (orbit next w (n + 1)) (orbit next w' m') := by
    obtain ⟨k, meets⟩ := meets.catchUp joins
    exact ⟨m + k, Nat.le_add_right m k, orbit_add next w' m k ▸ meets⟩
  -- for each point of the one, a point of the other that it meets is chosen in turn
  let φ : (n : Nat) → { m : Nat // Meets next view J (orbit next w n) (orbit next w' m) } :=
    fun n => n.rec ⟨0, h⟩ fun n before =>
      ⟨Classical.choose (further n before.1 before.2),
        (Classical.choose_spec (further n before.1 before.2)).2⟩
  have step (n : Nat) : (φ n).1 ≤ (φ (n + 1)).1 :=
    (Classical.choose_spec (further n (φ n).1 (φ n).2)).1
  refine ⟨fun n => (φ n).1, fun m n le => ?_, fun n => ((φ n).2.view_eq joins).symm⟩
  induction le with
  | refl => exact Nat.le_refl _
  | step _ ih => exact Nat.le_trans ih (step _)

/-- What meets again and again shows the same, whichever of the two is followed. -/
theorem follows_both (h : Meets next view J w w') :
    Follows view (orbit next w) (orbit next w') ∧ Follows view (orbit next w') (orbit next w) := by
  refine ⟨h.follows joins, h.symm.follows fun join => ?_⟩
  obtain ⟨same, meets⟩ := joins join
  exact ⟨same.symm, meets.symm⟩

end Joins

end Meets

/-! ## What the looks find -/

/-- What an operation that was not refused finds when it looks itself. -/
def Program.looksAgain {a : Algebra} {α : Type} (fs : Fibers) (f : Fiber) :
    Program B P a α → List Bool
  | .canceled => [(fs.cancel f).isCanceled f]
  | .poll token _ =>
    if fs.mask f = token.depth then [(fs.setMask f token.outer).isCanceled f] else []
  | _ => []

/-- What the looks for a cancellation find that the next step takes, in order. -/
def State.observations : State B P ρ → Scene B → List Bool
  | ⟨f, _, _, .run p, _⟩, sc =>
    if p.isOperation then
      if sc.fibers.isCanceled f then [true] else false :: p.looksAgain sc.fibers f
    else []
  | ⟨f, _, _, .give _, .cons (.region level) _⟩, sc => [(sc.fibers.setMask f level).isCanceled f]
  | _, _ => []

/-- A step finds a cancellation if one of its looks does. -/
theorem State.any_observations (s : State B P ρ) (sc : Scene B) :
    (s.observations sc).any id = s.finds sc := by
  obtain ⟨f, calls, site, control, stack⟩ := s
  cases control with
  | run p =>
    have again : (p.looksAgain sc.fibers f).any id = p.findsAgain sc.fibers f := by
      cases p with
      | canceled => simp [Program.looksAgain, Program.findsAgain]
      | poll token p =>
        by_cases own : sc.fibers.mask f = token.depth <;>
          simp [Program.looksAgain, Program.findsAgain, own]
      | _ => rfl
    cases operation : p.isOperation with
    | false => simp [observations, finds, operation]
    | true => cases canceled : sc.fibers.isCanceled f <;> simp [observations, finds, *]
  | give r =>
    cases stack with
    | cons frame rest =>
      cases frame with
      | region level => simp [observations, finds]
      | _ => rfl
    | _ => rfl
  | block turns code => rfl

/-! ## Watched runs -/

/-- How far a run has come, and what its looks have found. -/
structure Watched (B : Backend) (P : Procedures) (ρ : Type) : Type 1 extends Course B P ρ where
  observations : List Bool := []

/-- What there is to see of a run. -/
structure View (B : Backend) (P : Procedures) (ρ : Type) : Type 1 where
  operations : List (Executed B P)
  observations : List Bool
  scene : Scene B
  waits : Nat
  ending? : Option (Ending ρ)

namespace Watched

def view (w : Watched B P ρ) : View B P ρ :=
  ⟨w.operations, w.observations, w.scene, w.waits, w.ending?⟩

section Next

variable (bodies : Bodies B P) (rt : Runtime) (others : Nat → Scene B → Scene B)

/-- Take a step, if the run is not over. -/
def next (w : Watched B P ρ) : Watched B P ρ where
  toCourse := w.toCourse.next bodies rt others
  observations :=
    w.observations ++ if w.ending?.isNone then w.state.observations w.scene else []

/-- A run from a state and a scene on, after a number of steps. -/
def run (s : State B P ρ) (sc : Scene B) : Nat → Watched B P ρ :=
  orbit (next bodies rt others) { state := s, scene := sc }

theorem toCourse_run (s : State B P ρ) (sc : Scene B) (n : Nat) :
    (run bodies rt others s sc n).toCourse = course bodies rt others s sc n := by
  induction n with
  | zero => rfl
  | succ n ih => exact congrArg (Course.next bodies rt others) ih

end Next

end Watched

/-! ## What a step shows -/

/-- The point a step leads to, if the run goes on. -/
def Next.state? : Next B P ρ → Option (State B P ρ)
  | .more s _ => some s
  | .waiting s _ => some s
  | _ => none

/-- What there is to see after a step that has carried out and found what is given. -/
def View.follow (others : Nat → Scene B → Scene B) (executed : List (Executed B P))
    (found : List Bool) (v : View B P ρ) : Next B P ρ → View B P ρ
  | .more _ sc => ⟨v.operations ++ executed, v.observations ++ found, sc, v.waits, v.ending?⟩
  | .waiting _ sc =>
    ⟨v.operations ++ executed, v.observations ++ found, others (v.waits + 1) sc, v.waits + 1,
      v.ending?⟩
  | .ended r sc =>
    ⟨v.operations ++ executed, v.observations ++ found, sc, v.waits,
      some (.outcome (.ofExcept r))⟩
  | .panicked panic sc =>
    ⟨v.operations ++ executed, v.observations ++ found, sc, v.waits, some (.panicked panic)⟩

namespace Watched

variable {bodies : Bodies B P} {rt : Runtime} {others : Nat → Scene B → Scene B}
  {w w' : Watched B P ρ} {ending : Ending ρ}

theorem next_of_over (ended : w.ending? = some ending) : w.next bodies rt others = w := by
  obtain ⟨c, observations⟩ := w
  have ended : c.ending? = some ending := ended
  simp [next, ended, Course.next_of_over ended]

theorem view_next (pending : w.ending? = none) :
    (w.next bodies rt others).view =
      w.view.follow others (w.state.executes w.scene) (w.state.observations w.scene)
        (w.state.step bodies rt w.scene) := by
  obtain ⟨c, observations⟩ := w
  have pending : c.ending? = none := pending
  simp only [view, next, pending, Course.next_of_pending pending, Course.operations_follow,
    Course.operations_note]
  cases c.state.step bodies rt c.scene <;> simp [Course.follow, Course.note, View.follow, pending]

theorem state_next (pending : w.ending? = none) :
    (w.next bodies rt others).state =
      (w.state.step bodies rt w.scene).state?.getD w.state := by
  obtain ⟨c, observations⟩ := w
  have pending : c.ending? = none := pending
  simp only [next, Course.next_of_pending pending]
  cases c.state.step bodies rt c.scene <;> rfl

variable (bodies rt others) in
/-- Two runs that have shown the same go on, each to what its step leads to, with nothing but that
step between them. -/
theorem nexts (shown : w.view = w'.view) (pending : w.ending? = none)
    (executes : w.state.executes w.scene = w'.state.executes w.scene)
    (observations : w.state.observations w.scene = w'.state.observations w.scene) :
    let follow := w.view.follow others (w.state.executes w.scene) (w.state.observations w.scene)
    let n := w.state.step bodies rt w.scene
    let n' := w'.state.step bodies rt w.scene
    ((w.next bodies rt others).view = follow n ∧ (w'.next bodies rt others).view = follow n') ∧
      (w.next bodies rt others).state = n.state?.getD w.state ∧
        (w'.next bodies rt others).state = n'.state?.getD w'.state := by
  intro follow n n'
  have pending' : w'.ending? = none := (congrArg View.ending? shown).symm.trans pending
  have scene : w'.scene = w.scene := (congrArg View.scene shown).symm
  refine ⟨⟨view_next pending, ?_⟩, state_next pending, ?_⟩
  · rw [view_next pending', scene, ← shown, ← executes, ← observations]
  · rw [state_next pending', scene]

/-- Two runs are at the same point, and have shown the same. -/
structure Same (w w' : Watched B P ρ) : Prop where
  state_eq : w.state = w'.state
  view_eq : w.view = w'.view

theorem Same.next (same : Same w w') :
    Same (w.next bodies rt others) (w'.next bodies rt others) := by
  have ending : w.ending? = w'.ending? := congrArg View.ending? same.view_eq
  cases ended : w.ending? with
  | some e =>
    rw [next_of_over ended, next_of_over (ending ▸ ended)]
    exact same
  | none =>
    obtain ⟨⟨view, view'⟩, state, state'⟩ :=
      nexts bodies rt others same.view_eq ended (by rw [same.state_eq]) (by rw [same.state_eq])
    constructor
    · rw [state, state', same.state_eq]
    · rw [view, view', same.state_eq]

end Watched

/-! ## Quiet steps -/

/-- In every scene the next step of `s` leads to `t`, and there is nothing to be seen of it. -/
structure State.Slips (bodies : Bodies B P) (rt : Runtime) (s t : State B P ρ) : Prop where
  step : ∀ sc, s.step bodies rt sc = .more t sc
  executes : ∀ sc, s.executes sc = []
  observations : ∀ sc, s.observations sc = []

/-- A number of steps that show nothing lead from `s` to `t`. -/
inductive State.SlipsTo (bodies : Bodies B P) (rt : Runtime) :
    State B P ρ → State B P ρ → Prop where
  | here {s : State B P ρ} : SlipsTo @bodies rt s s
  | step {s t u : State B P ρ} (slips : s.Slips bodies rt t) (rest : SlipsTo @bodies rt t u) :
      SlipsTo @bodies rt s u

namespace Watched

variable {bodies : Bodies B P} {rt : Runtime} {others : Nat → Scene B → Scene B}
  {J : Watched B P ρ → Watched B P ρ → Prop} {w w' : Watched B P ρ} {s s' t t' : State B P ρ}

variable (others) in
theorem next_of_slips (pending : w.ending? = none) (slips : w.state.Slips bodies rt t) :
    (w.next bodies rt others).state = t ∧ (w.next bodies rt others).view = w.view := by
  constructor
  · rw [state_next pending, slips.step]
    rfl
  · rw [view_next pending, slips.step, slips.executes, slips.observations, View.follow,
      List.append_nil, List.append_nil]
    rfl

theorem meets_left (pending : w.ending? = none) (state : w.state = s)
    (slips : s.SlipsTo bodies rt t)
    (h : ∀ v : Watched B P ρ, v.state = t → v.view = w.view →
      Meets (next bodies rt others) view J v w') :
    Meets (next bodies rt others) view J w w' := by
  induction slips generalizing w with
  | here => exact h w state rfl
  | step slips _ ih =>
    obtain ⟨state, quiet⟩ := next_of_slips others pending (state ▸ slips)
    have pending' : (w.next bodies rt others).ending? = none :=
      (congrArg View.ending? quiet).trans pending
    exact .left quiet (ih pending' state fun v at_ same => h v at_ (same.trans quiet))

/-- Runs that come to points where they meet without showing anything meet. -/
theorem meets_of_slipsTo (pending : w.ending? = none) (shown : w.view = w'.view)
    (state : w.state = s) (slips : s.SlipsTo bodies rt t) (state' : w'.state = s')
    (slips' : s'.SlipsTo bodies rt t')
    (h : ∀ v v' : Watched B P ρ, v.state = t → v'.state = t' → v.ending? = none →
      v.view = v'.view → Meets (next bodies rt others) view J v v') :
    Meets (next bodies rt others) view J w w' := by
  have ending {v : Watched B P ρ} (same : v.view = w.view) : v.ending? = none :=
    (congrArg View.ending? same).trans pending
  refine meets_left pending state slips fun v at_ same => ?_
  refine (meets_left (ending shown.symm) state' slips' fun v' at' same' => ?_).symm
  exact (h v v' at_ at' (ending same) (same.trans (shown.trans same'.symm))).symm

/-- Runs that come to the same point without showing anything meet there. -/
theorem meets_same (same : ∀ {v v' : Watched B P ρ}, v.Same v' → J v v')
    (pending : w.ending? = none) (shown : w.view = w'.view)
    (state : w.state = s) (slips : s.SlipsTo bodies rt t) (state' : w'.state = s')
    (slips' : s'.SlipsTo bodies rt t) :
    Meets (next bodies rt others) view J w w' := by
  refine meets_of_slipsTo pending shown state slips state' slips' ?_
  intro v v' at_ at' _ shown
  exact .here (same ⟨at_.trans at'.symm, shown⟩)

end Watched

/-! ## Programs that behave in the same way -/

/-- On every stack, wherever they are run, in every scene, on every runtime and whatever others do
while they wait, the two programs show the same. -/
def Program.BehavesAs (bodies : Bodies B P) {a : Algebra} {α : Type} (p q : Program B P a α) :
    Prop :=
  ∀ (ρ : Type) (rt : Runtime) (others : Nat → Scene B → Scene B) (f : Fiber) (calls : Nat)
    (site : Site B a) (stack : Stack B P a α ρ) (sc : Scene B),
    let run (p : Program B P a α) :=
      Watched.run bodies rt others ⟨f, calls, site, .run p, stack⟩ sc
    Follows Watched.view (run p) (run q) ∧ Follows Watched.view (run q) (run p)

/-- Programs that come to the same point, without showing anything, behave in the same way. -/
theorem Program.behavesAs_of_slipsTo {bodies : Bodies B P} {a : Algebra} {α : Type}
    {p q : Program B P a α}
    (slips : ∀ {ρ : Type} (rt : Runtime) (f : Fiber) (calls : Nat) (site : Site B a)
      (stack : Stack B P a α ρ), ∃ t : State B P ρ,
        State.SlipsTo bodies rt ⟨f, calls, site, .run p, stack⟩ t ∧
          State.SlipsTo bodies rt ⟨f, calls, site, .run q, stack⟩ t) :
    p.BehavesAs bodies q := by
  intro ρ rt others f calls site stack sc
  obtain ⟨t, slips, slips'⟩ := slips rt f calls site stack
  refine Meets.follows_both (J := Watched.Same) ?_
    (Watched.meets_same id rfl rfl rfl slips rfl slips')
  intro w w' same
  exact ⟨same.view_eq, .here same.next⟩

/-- An operation does not behave as a value does: it looks for a cancellation first. -/
theorem Program.not_behavesAs_operation {bodies : Bodies B P} {a : Algebra} {α : Type}
    {p : Program B P a α} (operation : p.isOperation = true) (handle : B.Handle a)
    (world : B.World) (x : α) : ¬BehavesAs bodies (.pure x) p := by
  intro behaves
  let f : Fiber := ⟨.numbered 0, .numbered 0⟩
  let sc : Scene B := ⟨{}, world, []⟩
  let run (p : Program B P a α) :=
    Watched.run bodies .inline Scene.undisturbed ⟨f, 0, ⟨handle, 0, []⟩, .run p, .nil⟩ sc
  obtain ⟨-, φ, -, same⟩ := behaves α .inline Scene.undisturbed f 0 ⟨handle, 0, []⟩ .nil sc
  have finished (n : Nat) : run (.pure x) (n + 2) = run (.pure x) 2 := by
    induction n with
    | zero => rfl
    | succ n ih => exact (Watched.next_of_over (congrArg (·.ending?) ih)).trans ih
  have silent (n : Nat) : (run (.pure x) n).observations = [] := by
    match n with
    | 0 => rfl
    | 1 => rfl
    | n + 2 => rw [finished]; rfl
  have looked : (run p 1).observations ≠ [] := by
    have first : (run p 1).observations =
      State.observations ⟨f, 0, ⟨handle, 0, []⟩, .run p, .nil⟩ sc := rfl
    rw [first]
    simp only [State.observations, operation, if_true]
    split <;> exact List.cons_ne_nil _ _
  exact looked ((congrArg View.observations (same 1)).symm.trans (silent (φ 1)))

namespace Program.BehavesAs

variable {bodies : Bodies B P} {a : Algebra} {p q : Program B P a ρ}

/-- A machine comes to the same end, and leaves the same scene, with programs that behave in the
same way. -/
theorem run_iff (h : p.BehavesAs bodies q) (rt : Runtime) (f : Fiber) (handle : B.Handle a)
    (sc : Scene B) {e : Ending ρ} {sc' : Scene B} (known : e ≠ .exhausted) :
    (∃ bound, (⟨bodies, rt, bound⟩ : Machine B P).run f handle p sc = (e, sc')) ↔
      ∃ bound, (⟨bodies, rt, bound⟩ : Machine B P).run f handle q sc = (e, sc') := by
  have transfer {p q : Program B P a ρ}
      (follows : Follows Watched.view
        (Watched.run bodies rt Scene.undisturbed (.start f handle p sc.fibers) sc)
        (Watched.run bodies rt Scene.undisturbed (.start f handle q sc.fibers) sc))
      (ends : ∃ bound, (⟨bodies, rt, bound⟩ : Machine B P).run f handle p sc = (e, sc')) :
      ∃ bound, (⟨bodies, rt, bound⟩ : Machine B P).run f handle q sc = (e, sc') := by
    obtain ⟨n, c, rfl, ended, rfl⟩ := (Machine.run_iff_course known).mp ends
    obtain ⟨φ, -, same⟩ := follows
    have ending := congrArg View.ending? (same n)
    have scene := congrArg View.scene (same n)
    simp only [Watched.view, Watched.toCourse_run] at ending scene
    refine (Machine.run_iff_course known).mpr ⟨φ n, _, rfl, ending.trans ended, ?_⟩
    rw [scene]
  obtain ⟨there, back⟩ := h ρ rt Scene.undisturbed f 0 ⟨handle, sc.fibers.mask f, []⟩ .nil sc
  exact ⟨transfer there, transfer back⟩

end Program.BehavesAs
end Cancelable
