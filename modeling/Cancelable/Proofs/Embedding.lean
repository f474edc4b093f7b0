import Cancelable.Proofs.Course
import Cancelable.Proofs.Ends
import Cancelable.Proofs.Level
import Cancelable.Proofs.Lockstep

/-!
# Embedding is transparent

A program that is embedded in another one is run on the stack of the other, between the frames of
the other and its own.  Run the same program by itself, on its handle and in the same fiber: the two
runs take the same steps, since no step looks below the frames of the program it belongs to.  All
that tells the runs apart is what they report, for an event names the programs around it.

Others may change the scene while the runs wait, if they do the same to both.

Main statement: an embedded program does what it does by itself, and hands its result to the frames
around it; embedded on the handle it would be run on anyway, it does what it does without being
embedded (`Course.embed_transparent`).
-/

namespace Cancelable

variable {B : Backend} {P : Procedures} {ρ ρ' : Type}

/-! ## No discipline -/

/-- The discipline that asks for nothing. -/
def Discipline.free (B : Backend) : Discipline B where
  code _ := True
  token _ := True

theorem Program.obeys_free {a : Algebra} {α : Type} (p : Program B P a α) :
    p.Obeys (.free B) := by
  induction p with
  | build code k ih => exact ⟨trivial, ih⟩
  | map p g ih => exact ⟨ih, fun _ => trivial⟩
  | bind p k ih₁ ih₂ => exact ⟨ih₁, ih₂⟩
  | raw code => exact fun _ => trivial
  | embed handle p ih => exact ih
  | handleError p handler ih₁ ih₂ => exact ⟨ih₁, ih₂⟩
  | forceR p q ih₁ ih₂ => exact ⟨ih₁, ih₂⟩
  | uncancelable body ih => exact fun token _ => ih token
  | poll token p ih => exact ⟨trivial, ih⟩
  | onCancel p finalizer ih₁ ih₂ => exact ⟨ih₁, ih₂⟩
  | _ => exact trivial

theorem Frame.obeys_free {a : Algebra} {α β : Type} (frame : Frame B P a α β) :
    frame.Obeys (.free B) := by
  cases frame with
  | map g => exact fun _ => trivial
  | bind k => exact fun x => (k x).obeys_free
  | recover handler => exact fun failure => (handler failure).obeys_free
  | forceR next => exact next.obeys_free
  | onCancel finalizer => exact finalizer.obeys_free
  | _ => exact trivial

theorem Control.obeys_free {a : Algebra} {α : Type} (control : Control B P a α) :
    control.Obeys (.free B) := by
  cases control with
  | run p => exact p.obeys_free
  | _ => exact trivial

theorem Stack.topObeys_free {a : Algebra} {α : Type} (stack : Stack B P a α ρ) :
    stack.TopObeys (.free B) := by
  cases stack with
  | cons frame rest => exact frame.obeys_free
  | _ => exact trivial

theorem Discipline.kept_free (bodies : Bodies B P) : (Discipline.free B).Kept bodies :=
  ⟨fun _ _ => trivial, trivial, trivial, fun procedure => (bodies procedure).obeys_free⟩

/-! ## Scenes without reports -/

namespace Scene

variable {sc sc' : Scene B}

/-- The scene without the events that were reported. -/
def unreported (sc : Scene B) : Scene B :=
  { sc with events := [] }

theorem unreported_eq_iff :
    sc.unreported = sc'.unreported ↔ sc.fibers = sc'.fibers ∧ sc.world = sc'.world := by
  simp [unreported, Scene.mk.injEq]

theorem unreported_setMask (alike : sc.unreported = sc'.unreported) (f : Fiber) (n : Nat) :
    (sc.setMask f n).unreported = (sc'.setMask f n).unreported := by
  obtain ⟨fibers, world⟩ := unreported_eq_iff.mp alike
  exact unreported_eq_iff.mpr ⟨by simp [fibers], world⟩

end Scene

/-- Scenes that differ in what was reported only are alike to every program.  The names of the
programs around are reported, and may differ as well. -/
def Likeness.unreported (f : Fiber) (around : List Algebra → List Algebra → Prop)
    (around_cons : ∀ {l l' : List Algebra} (a : Algebra), around l l' → around (a :: l) (a :: l')) :
    Likeness (.free B) f f where
  alike sc sc' := sc.unreported = sc'.unreported
  around := around
  around_cons := around_cons
  mask_eq alike := by rw [(Scene.unreported_eq_iff.mp alike).1]
  host {sc sc' α code} _ alike := by
    obtain ⟨fibers, world⟩ := Scene.unreported_eq_iff.mp alike
    simp [Scene.host, Scene.unreported, fibers, world]
  emit _ _ alike := alike
  setMask n alike := Scene.unreported_setMask alike f n
  cancel alike := by
    obtain ⟨fibers, world⟩ := Scene.unreported_eq_iff.mp alike
    exact Scene.unreported_eq_iff.mpr ⟨by simp [fibers], world⟩

/-! ## Courses of twins -/

section Twins

variable {b : Algebra} {β : Type} {made : Nat} {f : Fiber}
  {around : List Algebra → List Algebra → Prop} {site₀ site₀' : Site B b} {base : Stack B P b β ρ}
  {base' : Stack B P b β ρ'}

namespace Course

/-- Two runs have carried out the same and waited as often, and differ only in what they
reported. -/
structure Alike (c : Course B P ρ) (c' : Course B P ρ') : Prop where
  operations_eq : c.operations = c'.operations
  waits_eq : c.waits = c'.waits
  scene : c.scene.unreported = c'.scene.unreported

/-- Two runs that are not over are twins, and alike. -/
structure Paired (made : Nat) (f : Fiber) (around : List Algebra → List Algebra → Prop)
    (site₀ site₀' : Site B b) (base : Stack B P b β ρ) (base' : Stack B P b β ρ')
    (c : Course B P ρ) (c' : Course B P ρ') : Prop where
  pending : c.ending? = none
  pending' : c'.ending? = none
  twin : State.Twin made f f around site₀ site₀' base base' c.state c'.state
  alike : c.Alike c'

/-- Two runs have broken off in the same way, and what was below them was given up in scenes that
differ in what was reported only. -/
structure BrokenOff (f : Fiber) (site₀ site₀' : Site B b) (base : Stack B P b β ρ)
    (base' : Stack B P b β ρ') (c : Course B P ρ) (c' : Course B P ρ') : Prop where
  operations_eq : c.operations = c'.operations
  waits_eq : c.waits = c'.waits
  broken : ∃ panic, c.ending? = some (.panicked panic) ∧ c'.ending? = some (.panicked panic)
  givenUp : ∃ sc sc', c.scene = base.abandon f site₀ sc ∧ c'.scene = base'.abandon f site₀' sc' ∧
    sc.unreported = sc'.unreported

variable {c : Course B P ρ} {c' : Course B P ρ'}

/-- What others do does not depend on what was reported. -/
def Unaware (others : Nat → Scene B → Scene B) : Prop :=
  ∀ n (sc sc' : Scene B), sc.unreported = sc'.unreported →
    (others n sc).unreported = (others n sc').unreported

/-- Two runs that are paired stay so, or break off in the same way, unless they are back on the
stacks they were started on. -/
theorem Paired.next (bodies : Bodies B P) (rt rt' : Runtime) {others : Nat → Scene B → Scene B}
    (unaware : Unaware others) (h : Paired made f around site₀ site₀' base base' c c')
    (away : ¬c.state.Back site₀ base) (turns : ∀ n, rt.turns (n + made) = rt'.turns n)
    (base_fits : site₀.Fits around site₀')
    (around_cons : ∀ {l l' : List Algebra} (a : Algebra), around l l' → around (a :: l) (a :: l')) :
    Paired made f around site₀ site₀' base base' (c.next bodies rt others)
        (c'.next bodies rt' others) ∨
      BrokenOff f site₀ site₀' base base' (c.next bodies rt others)
        (c'.next bodies rt' others) := by
  obtain ⟨pending, pending', twin, operations, waits, scene⟩ := h
  have fibers : c.scene.fibers = c'.scene.fibers := (Scene.unreported_eq_iff.mp scene).1
  have looks : c.state.looks c.scene = c'.state.looks c'.scene :=
    twin.looks_eq away (by rw [fibers]) (by rw [fibers])
  have carried : c.note.operations = c'.note.operations := by
    rw [operations_note, operations_note, operations, twin.executes_eq base_fits looks]
  have next : Next.Twin (.unreported f around around_cons) made site₀ site₀' base base'
      c.state.abandon c'.state.abandon (c.state.step bodies rt c.scene)
      (c'.state.step bodies rt' c'.scene) :=
    twin.step turns (Discipline.kept_free bodies) base_fits scene away
      (Control.obeys_free _) (fun _ _ => Stack.topObeys_free _) looks
  rw [next_of_pending pending, next_of_pending pending']
  revert next
  generalize c.state.step bodies rt c.scene = n
  generalize c'.state.step bodies rt' c'.scene = n'
  rintro (⟨twin', scenes⟩ | ⟨twin', scenes⟩ | ⟨panic, scenes⟩)
  · exact .inl ⟨pending, pending', twin', carried, waits, scenes⟩
  · have waited : c.waits + 1 = c'.waits + 1 := congrArg (· + 1) waits
    refine .inl ⟨pending, pending', twin', carried, waited, ?_⟩
    show (others (c.waits + 1) _).unreported = (others (c'.waits + 1) _).unreported
    rw [waited]
    exact unaware _ _ _ scenes
  · refine .inr ⟨carried, waits, ⟨panic, rfl, rfl⟩, ?_⟩
    exact twin.abandon scenes

end Course

end Twins

/-! ## An embedded program and the same program by itself -/

/-- The runtime as it is after some blocking calls. -/
def Runtime.after (rt : Runtime) (calls : Nat) : Runtime :=
  ⟨rt.name, fun n => rt.turns (n + calls)⟩

/-- The number of programs on a stack that others are embedded in. -/
def Stack.embeddings : {a : Algebra} → {α : Type} → Stack B P a α ρ → Nat
  | _, _, .nil => 0
  | _, _, .cons _ rest => rest.embeddings
  | _, _, .embedded _ rest => rest.embeddings + 1

theorem Stack.Over.embeddings_le {a b : Algebra} {α β : Type} {site₀ : Site B b}
    {base : Stack B P b β ρ} {site : Site B a} {stack : Stack B P a α ρ}
    (grown : Over site₀ base site stack) : base.embeddings ≤ stack.embeddings := by
  induction grown with
  | here => exact Nat.le_refl _
  | cons _ ih => exact ih
  | embedded _ ih => exact Nat.le_succ_of_le ih

/-- As long as no further program is embedded, programs are run on the site they were started on. -/
theorem Stack.Over.own_site {a b : Algebra} {α β : Type} {site₀ : Site B b}
    {base : Stack B P b β ρ} {site : Site B a} {stack : Stack B P a α ρ}
    (grown : Over site₀ base site stack) (own : stack.embeddings = base.embeddings) :
    (⟨a, site⟩ : Σ a, Site B a) = ⟨b, site₀⟩ := by
  induction grown with
  | here => rfl
  | cons _ ih => exact ih own
  | embedded grown _ =>
    have le := grown.embeddings_le
    rw [← own] at le
    exact absurd le (Nat.not_succ_le_self _)

/-- The point right after a program was embedded, at the mask depth `m`. -/
def State.embedded {a b : Algebra} {α : Type} (f : Fiber) (calls m : Nat) (site : Site B a)
    (stack : Stack B P a α ρ) (handle : B.Handle b) (p : Program B P b α) : State B P ρ :=
  ⟨f, calls, ⟨handle, m, site.spans⟩, .run p, .embedded site stack⟩

/-- What a program carries out on the site it was started on is on the handle of the site. -/
theorem State.executes_own {b : Algebra} {site₀ : Site B b} {s : State B P ρ} {sc : Scene B}
    (own : (⟨s.a, s.site⟩ : Σ a, Site B a) = ⟨b, site₀⟩) :
    ∀ e ∈ s.executes sc, ∃ (β : Type) (q : Program B P b β), e = ⟨site₀.handle, q⟩ := by
  intro e carried
  obtain ⟨f, calls, site, control, stack⟩ := s
  cases own
  cases control with
  | run p =>
    simp only [executes] at carried
    split at carried
    · exact ⟨_, p, List.mem_singleton.mp carried⟩
    · cases carried
  | give r => cases carried
  | block turns code => cases carried

namespace Course

section Embedded

variable {a b : Algebra} {α : Type} {f : Fiber} {site : Site B a} {stack : Stack B P a α ρ}
  {handle : B.Handle b}

/-- What the run of an embedded program, `inside`, has in common with a run of the same program by
itself, `direct`, that is not over after `n` steps.  So far the two have carried out the same, on
the same handles, in scenes that differ in what was reported only; the operations that belong to no
program embedded in turn are on the handle of the program.  If the one by itself comes to a result
in the next step, the embedded one hands that result to the frames around it, in the same scene; if
it breaks off, so does the embedded one, and the programs around it are given up. -/
structure Transparent (f : Fiber) (site : Site B a) (stack : Stack B P a α ρ) (handle : B.Handle b)
    (inside : Nat → Course B P ρ) (direct : Nat → Course B P α) (n : Nat) : Prop where
  alike : (inside n).Alike (direct n)
  pending : (inside n).ending? = none
  own : (inside n).state.stack.embeddings = stack.embeddings + 1 →
    ∀ e ∈ (inside n).state.executes (inside n).scene,
      ∃ (β : Type) (q : Program B P b β), e = ⟨handle, q⟩
  gives : ∀ o, (direct (n + 1)).ending? = some (.outcome o) →
    (inside (n + 1)).Alike (direct (n + 1)) ∧ (inside (n + 1)).ending? = none ∧
      ∃ calls, (inside (n + 1)).state = ⟨f, calls, site, .give o.toExcept, stack⟩
  breaks : ∀ panic, (direct (n + 1)).ending? = some (.panicked panic) →
    (inside (n + 1)).operations = (direct (n + 1)).operations ∧
      (inside (n + 1)).ending? = some (.panicked panic) ∧
        ∃ sc, (inside (n + 1)).scene = stack.abandon f site sc ∧
          sc.unreported = (direct (n + 1)).scene.unreported

variable {bodies : Bodies B P} {rt : Runtime} {others : Nat → Scene B → Scene B}

/-- A program that is run by itself ends where it has a result and nothing remains to be done. -/
theorem next_of_give_nil {c : Course B P ρ} {calls : Nat} {r : Except Interrupted ρ}
    {site : Site B b} (pending : c.ending? = none)
    (state : c.state = ⟨f, calls, site, .give r, .nil⟩) :
    c.next bodies rt others = c.note.follow others (.ended r (c.scene.setMask f site.entry)) := by
  rw [next_of_pending pending, state]
  rfl

theorem next_of_give_embedded {c : Course B P ρ} {calls : Nat} {r : Except Interrupted α}
    {inside : Site B b} (pending : c.ending? = none)
    (state : c.state = ⟨f, calls, inside, .give r, .embedded site stack⟩) :
    c.next bodies rt others =
      c.note.follow others
        (.more ⟨f, calls, site, .give r, stack⟩ (c.scene.setMask f inside.entry)) := by
  rw [next_of_pending pending, state]
  rfl

/-- What is given is not carried out. -/
theorem operations_note_of_give {c : Course B P ρ} {calls : Nat} {r : Except Interrupted α}
    (state : c.state = ⟨f, calls, site, .give r, stack⟩) : c.note.operations = c.operations := by
  rw [operations_note, state]
  exact List.append_nil _

section Direct

variable {calls : Nat} {p : Program B P b α} {sc : Scene B}

/-- Until the program that is run by itself has ended, the embedded one is its twin. -/
theorem paired_direct (unaware : Unaware others) (n : Nat) :
    let m := sc.fibers.mask f
    let inside := course bodies rt others (.embedded f calls m site stack handle p) sc
    let direct := course bodies (rt.after calls) others (.start f handle p sc.fibers) sc
    (direct n).ending? = none →
      Paired calls f (fun _ _ => True) ⟨handle, m, site.spans⟩ ⟨handle, m, []⟩
        (.embedded site stack) .nil (inside n) (direct n) := by
  intro m inside direct pending
  induction n with
  | zero =>
    refine ⟨rfl, rfl, ?_, rfl, rfl, rfl⟩
    have twin : State.Twin calls f f (fun _ _ => True) ⟨handle, m, site.spans⟩ ⟨handle, m, []⟩
        (.embedded site stack) .nil
        ⟨f, 0 + calls, ⟨handle, m, site.spans⟩, .run p, .embedded site stack⟩
        (.start f handle p sc.fibers) := .mk 0 (.run p) .here
    rw [Nat.zero_add] at twin
    exact twin
  | succ n ih =>
    have paired := ih (pending_of_next pending)
    have away : ¬(inside n).state.Back ⟨handle, m, site.spans⟩ (.embedded site stack) := by
      intro back
      obtain ⟨calls', r, -, state⟩ := paired.twin.back back
      have ended : (direct (n + 1)).ending? = some (.outcome (.ofExcept r)) := by
        rw [show direct (n + 1) = _ from next_of_give_nil paired.pending' state]
        rfl
      cases pending.symm.trans ended
    rcases paired.next bodies rt (rt.after calls) unaware away (fun _ => rfl) ⟨rfl, trivial⟩
      (fun _ _ => trivial) with next | broken
    · exact next
    · obtain ⟨panic, -, ended⟩ := broken.broken
      cases pending.symm.trans ended

theorem transparent (unaware : Unaware others) (n : Nat) :
    let m := sc.fibers.mask f
    let inside := course bodies rt others (.embedded f calls m site stack handle p) sc
    let direct := course bodies (rt.after calls) others (.start f handle p sc.fibers) sc
    (direct n).ending? = none → Transparent f site stack handle inside direct n := by
  intro m inside direct pending
  have paired : Paired calls f (fun _ _ => True) ⟨handle, m, site.spans⟩ ⟨handle, m, []⟩
      (.embedded site stack) .nil (inside n) (direct n) := paired_direct unaware n pending
  have next (away : ¬(inside n).state.Back ⟨handle, m, site.spans⟩ (.embedded site stack)) :=
    paired.next bodies rt (rt.after calls) unaware away (fun _ => rfl) ⟨rfl, trivial⟩
      (fun _ _ => trivial)
  refine ⟨paired.alike, paired.pending, ?_, ?_, ?_⟩
  · intro own
    exact State.executes_own (paired.twin.grown.own_site own)
  · intro o ended
    by_cases back : (inside n).state.Back ⟨handle, m, site.spans⟩ (.embedded site stack)
    · obtain ⟨calls', r, state, state'⟩ := paired.twin.back back
      have last : inside (n + 1) = _ := next_of_give_embedded paired.pending state
      have last' : direct (n + 1) = _ := next_of_give_nil paired.pending' state'
      rw [last'] at ended
      cases ended
      rw [last, last', Outcome.toExcept_ofExcept]
      refine ⟨⟨?_, paired.alike.waits_eq, ?_⟩, paired.pending, _, rfl⟩
      · rw [operations_follow, operations_follow, operations_note_of_give state,
          operations_note_of_give state', paired.alike.operations_eq]
      · exact Scene.unreported_setMask paired.alike.scene f m
    · rcases next back with paired | broken
      · cases paired.pending'.symm.trans ended
      · obtain ⟨panic, -, ended'⟩ := broken.broken
        cases ended.symm.trans ended'
  · intro panic ended
    by_cases back : (inside n).state.Back ⟨handle, m, site.spans⟩ (.embedded site stack)
    · obtain ⟨calls', r, -, state'⟩ := paired.twin.back back
      have last' : direct (n + 1) = _ := next_of_give_nil paired.pending' state'
      rw [last'] at ended
      cases ended
    · rcases next back with paired | ⟨operations, -, broken, givenUp⟩
      · cases paired.pending'.symm.trans ended
      · obtain ⟨panic', ending, ending'⟩ := broken
        obtain ⟨sc₁, sc₁', scene, scene', alike⟩ := givenUp
        cases ended.symm.trans ending'
        refine ⟨operations, ending, sc₁.setMask f m, scene, ?_⟩
        have scene' : (direct (n + 1)).scene = sc₁'.setMask f m := scene'
        rw [scene']
        exact Scene.unreported_setMask alike f m

/-- Where the embedded program has come to its result, the mask is as it was at its start. -/
theorem mask_of_back (unaware : Unaware others)
    (keeps : ∀ n (sc : Scene B), (others n sc).fibers.mask f = sc.fibers.mask f) (n : Nat) :
    let m := sc.fibers.mask f
    let inside := course bodies rt others (.embedded f calls m site stack handle p) sc
    let direct := course bodies (rt.after calls) others (.start f handle p sc.fibers) sc
    (direct n).ending? = none →
      (inside n).state.Back ⟨handle, m, site.spans⟩ (.embedded site stack) →
        (inside n).scene.fibers.mask f = m := by
  intro m inside direct pending back
  have paired : Paired calls f (fun _ _ => True) ⟨handle, m, site.spans⟩ ⟨handle, m, []⟩
      (.embedded site stack) .nil (inside n) (direct n) := paired_direct unaware n pending
  have level : (direct n).state.fiber = f ∧
      (direct n).state.Level m ((direct n).scene.fibers.mask f) := by
    refine invariant (I := fun s sc => s.fiber = f ∧ s.Level m (sc.fibers.mask f)) ?_ ?_ ?_ n
      pending
    · exact ⟨rfl, if_pos rfl⟩
    · rintro t t' sc sc' goes ⟨rfl, level⟩
      have moves := State.moves_of_goesTo goes
      exact ⟨State.fiber_of_moves moves, moves.level level⟩
    · rintro t sc n ⟨fiber, level⟩
      rw [keeps]
      exact ⟨fiber, level⟩
  -- the program that is run by itself has no frames left
  obtain ⟨calls', r, -, state⟩ := paired.twin.back back
  rw [state] at level
  rw [(Scene.unreported_eq_iff.mp paired.alike.scene).1]
  exact (Stack.entry_eq_of_bare level.2 rfl).symm

end Direct

/-! ## An embedded program and the same program in its place -/

/-- Two runs are at the same point, and differ in what they reported only. -/
structure Same (c c' : Course B P ρ) : Prop where
  state_eq : c.state = c'.state
  ending_eq : c.ending? = c'.ending?
  alike : c.Alike c'

theorem Same.next {c c' : Course B P ρ} (bodies : Bodies B P) (rt : Runtime)
    (unaware : Unaware others) (h : Same c c') :
    Same (c.next bodies rt others) (c'.next bodies rt others) := by
  cases ended : c.ending? with
  | some ending =>
    rw [next_of_over ended, next_of_over (h.ending_eq.symm.trans ended)]
    exact h
  | none =>
    have pending' : c'.ending? = none := h.ending_eq.symm.trans ended
    obtain ⟨operations, waits, scene⟩ := h.alike
    have fibers : c.scene.fibers = c'.scene.fibers := (Scene.unreported_eq_iff.mp scene).1
    have looks : c.state.looks c.scene = c.state.looks c'.scene :=
      State.looks_into rfl (by rw [fibers]) (by rw [fibers])
    have carried : c.note.operations = c'.note.operations := by
      rw [operations_note, operations_note, operations, ← h.state_eq,
        State.executes_eq_of_looks looks]
    have next : Next.Likened (.unreported c.state.fiber Eq Likeness.cons_congr)
        (c.state.step bodies rt c.scene) (c.state.step bodies rt c'.scene) :=
      State.step_likened rt _ Iff.rfl rfl (Discipline.kept_free bodies) (Control.obeys_free _)
        (fun _ _ => Stack.topObeys_free _) scene looks
    rw [next_of_pending ended, next_of_pending pending', ← h.state_eq]
    revert next
    generalize c.state.step bodies rt c.scene = n
    generalize c.state.step bodies rt c'.scene = n'
    rintro (⟨t, own, scenes⟩ | ⟨t, own, scenes⟩ | ⟨r, scenes⟩ | ⟨panic, scenes⟩)
    · rw [State.into_eq_self own]
      exact ⟨rfl, h.ending_eq, carried, waits, scenes⟩
    · have waited : c.waits + 1 = c'.waits + 1 := congrArg (· + 1) waits
      rw [State.into_eq_self own]
      refine ⟨rfl, h.ending_eq, carried, waited, ?_⟩
      show (others (c.waits + 1) _).unreported = (others (c'.waits + 1) _).unreported
      rw [waited]
      exact unaware _ _ _ scenes
    · exact ⟨h.state_eq, rfl, carried, waits, scenes⟩
    · exact ⟨h.state_eq, rfl, carried, waits, scenes⟩

section Inlined

variable {calls : Nat} {q : Program B P a α} {sc : Scene B}

/-- The run of an embedded program, `inside`, compared with the run of the same program in its
place, `plain`, after `n` steps: the embedded one is on its way, or it has handed on its result, for
which it takes one step more, or both have broken off. -/
inductive Keeping (f : Fiber) (m : Nat) (site : Site B a) (stack : Stack B P a α ρ)
    (inside plain : Nat → Course B P ρ) (direct : Nat → Course B P α) (n : Nat) : Prop where
  | within (pending : (direct n).ending? = none)
      (paired : Paired 0 f (fun _ _ => True) ⟨site.handle, m, site.spans⟩ site
        (.embedded site stack) stack (inside n) (plain n))
      (away : ¬(inside n).state.Back ⟨site.handle, m, site.spans⟩ (.embedded site stack))
  | behind (same : Same (inside (n + 1)) (plain n))
  | ended (ending : Ending ρ) (ended : (inside n).ending? = some ending)
      (ended' : (plain n).ending? = some ending) (alike : (inside n).Alike (plain n))

variable (rt) (calls) (q) (sc)

theorem keeping (unaware : Unaware others)
    (keeps : ∀ n (sc : Scene B), (others n sc).fibers.mask f = sc.fibers.mask f) (n : Nat) :
    let m := sc.fibers.mask f
    let inside := course bodies rt others (.embedded f calls m site stack site.handle q) sc
    let plain := course bodies rt others ⟨f, calls, site, .run q, stack⟩ sc
    let direct := course bodies (rt.after calls) others (.start f site.handle q sc.fibers) sc
    Keeping f m site stack inside plain direct n := by
  intro m inside plain direct
  -- where the embedded program has come to its result, it hands it on in the next step
  have settle (n : Nat) (pending : (direct n).ending? = none)
      (paired : Paired 0 f (fun _ _ => True) ⟨site.handle, m, site.spans⟩ site
        (.embedded site stack) stack (inside n) (plain n)) :
      Keeping f m site stack inside plain direct n := by
    by_cases back : (inside n).state.Back ⟨site.handle, m, site.spans⟩ (.embedded site stack)
    · have depth : (inside n).scene.fibers.mask f = m := mask_of_back unaware keeps n pending back
      obtain ⟨calls', r, state, state'⟩ := paired.twin.back back
      refine .behind ?_
      have handed : inside (n + 1) = _ := next_of_give_embedded paired.pending state
      rw [handed]
      refine ⟨state'.symm, paired.pending.trans paired.pending'.symm, ?_, paired.alike.waits_eq, ?_⟩
      · rw [operations_follow, operations_note_of_give state, paired.alike.operations_eq]
      · show ((inside n).scene.setMask f m).unreported = _
        rw [Scene.setMask_eq_self depth]
        exact paired.alike.scene
    · exact .within pending paired back
  induction n with
  | zero =>
    exact settle 0 rfl ⟨rfl, rfl, .mk calls (.run q) .here, rfl, rfl, rfl⟩
  | succ n ih =>
    cases ih with
    | within pending paired away =>
      have direct_paired : Paired calls f (fun _ _ => True) ⟨site.handle, m, site.spans⟩
          ⟨site.handle, m, []⟩ (.embedded site stack) .nil (inside n) (direct n) :=
        paired_direct unaware n pending
      rcases paired.next bodies rt rt unaware away (fun _ => rfl) ⟨rfl, trivial⟩
        (fun _ _ => trivial) with next | ⟨operations, waits, broken, givenUp⟩
      · rcases direct_paired.next bodies rt (rt.after calls) unaware away (fun _ => rfl)
          ⟨rfl, trivial⟩ (fun _ _ => trivial) with direct_next | direct_broken
        · exact settle (n + 1) direct_next.pending' next
        · obtain ⟨panic, ended, -⟩ := direct_broken.broken
          cases next.pending.symm.trans ended
      · obtain ⟨panic, ended, ended'⟩ := broken
        obtain ⟨sc₁, sc₁', scene, scene', alike⟩ := givenUp
        refine .ended _ ended ended' ⟨operations, waits, ?_⟩
        calc
          (inside (n + 1)).scene.unreported =
              (stack.abandon f site (sc₁.setMask f m)).unreported := congrArg _ scene
          _ = (stack.abandon f site sc₁).unreported := by rw [Stack.abandon_setMask]
          _ = (stack.abandon f site sc₁').unreported :=
            (Likeness.unreported f Eq Likeness.cons_congr).abandon site stack alike
          _ = (plain (n + 1)).scene.unreported := (congrArg _ scene').symm
    | behind same => exact .behind (same.next bodies rt unaware)
    | ended ending ended ended' alike =>
      have last : inside (n + 1) = inside n := next_of_over ended
      have last' : plain (n + 1) = plain n := next_of_over ended'
      exact .ended ending (last ▸ ended) (last' ▸ ended') (last ▸ last' ▸ alike)

end Inlined

/-- Embedding is transparent.  Whatever program and handle are embedded, and whatever is on the
stack, the embed operation itself carries out nothing: it is refused if the cancellation of the
fiber is requested and not put off, and starts the embedded program otherwise.  From there on, as
long as the same program has not ended that is run by itself on its handle, in the same fiber and
among others that do the same, the embedded one is transparent.  And a program that is embedded on
the handle that it would have anyway does what it does in its place, at most one step later, if
others leave the mask of the fiber alone. -/
theorem embed_transparent (bodies : Bodies B P) (rt : Runtime) {others : Nat → Scene B → Scene B}
    (unaware : Unaware others) (f : Fiber) (calls : Nat) (site : Site B a) (stack : Stack B P a α ρ)
    (handle : B.Handle b) (p : Program B P b α) (sc : Scene B) :
    let m := sc.fibers.mask f
    let embedding : State B P ρ := ⟨f, calls, site, .run (.embed handle p), stack⟩
    let entered : State B P ρ := .embedded f calls m site stack handle p
    let inside := course bodies rt others entered sc
    let direct := course bodies (rt.after calls) others (.start f handle p sc.fibers) sc
    embedding.executes sc = [] ∧
    (sc.fibers.isCanceled f = true →
      embedding.step bodies rt sc =
        .more ⟨f, calls, site, .give (.error .canceled), stack⟩
          (sc.emit .cancellationObserved site.spans)) ∧
    (sc.fibers.isCanceled f = false → embedding.step bodies rt sc = .more entered sc) ∧
    (∀ n, (direct n).ending? = none → Transparent f site stack handle inside direct n) ∧
    ((∀ n (sc : Scene B), (others n sc).fibers.mask f = sc.fibers.mask f) →
      ∀ (q : Program B P a α) (n : Nat),
        let inside := course bodies rt others (.embedded f calls m site stack site.handle q) sc
        let plain := course bodies rt others ⟨f, calls, site, .run q, stack⟩ sc
        ∃ k, (k = n ∨ k = n + 1) ∧ (inside k).Alike (plain n) ∧
          (inside k).ending? = (plain n).ending?) := by
  intro m embedding entered inside direct
  refine ⟨rfl, ?_, ?_, fun n => transparent unaware n, ?_⟩
  · intro canceled
    exact State.observing_of_canceled canceled _
  · intro clear
    exact State.observing_of_clear clear _
  · intro keeps q n
    rcases keeping rt calls q sc unaware keeps n with
      ⟨-, paired, -⟩ | same | ⟨ending, ended, ended', alike⟩
    · exact ⟨n, .inl rfl, paired.alike, paired.pending.trans paired.pending'.symm⟩
    · exact ⟨n + 1, .inr rfl, same.alike, same.ending_eq⟩
    · exact ⟨n, .inl rfl, alike, ended.trans ended'.symm⟩

/-- A program that makes a blocking call and then writes a note is embedded in another one, whose
handler would write a note as well.  The cancellation is requested during the call, so the program
ends canceled, and hands the cancellation to the handler. -/
theorem embed_transparent_when_waiting :
    let f : Fiber := ⟨.numbered 0, .numbered 0⟩
    let p : Program .notes .none .largeObject Unit :=
      .bind (.suspend .blocking (Host.update fun written : List Nat => (.ok (), written ++ [1])))
        fun () => .note 2
    let site : Site .notes .connection := ⟨(), 0, []⟩
    let stack : Stack .notes .none .connection Unit Unit := .cons (.recover fun _ => .note 3) .nil
    let others (_ : Nat) (sc : Scene .notes) := { sc with fibers := sc.fibers.cancel f }
    let inside := course Bodies.none .stepped others (.embedded f 0 0 site stack () p) (.blank {})
    let direct := course Bodies.none (Runtime.stepped.after 0) others (.start f () p {}) (.blank {})
    (direct 7).ending? = some (.outcome .canceled) ∧ (inside 7).Alike (direct 7) ∧
      (inside 7).scene.world = [1] ∧
        ∃ calls, (inside 7).state = ⟨f, calls, site, .give (.error .canceled), stack⟩ := by
  intro f p site stack others inside direct
  have unaware : Unaware others := by
    intro n sc sc' alike
    obtain ⟨fibers, world⟩ := Scene.unreported_eq_iff.mp alike
    exact Scene.unreported_eq_iff.mpr ⟨congrArg (·.cancel f) fibers, world⟩
  obtain ⟨-, -, -, transparent, -⟩ := embed_transparent (P := .none) Bodies.none .stepped unaware f
    0 site stack () p (.blank {})
  have ended : (direct 7).ending? = some (.outcome .canceled) := rfl
  obtain ⟨alike, -, state⟩ := (transparent 6 rfl).gives _ ended
  exact ⟨ended, alike, rfl, state⟩

end Embedded
end Course
end Cancelable
