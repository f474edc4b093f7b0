import Cancelable.Proofs.Outline
import Mathlib.Data.Nat.Find

/-!
# Parts of a run

A part of a run is the time during which a program is run on a stack, from the step with which it
begins to the one at which it has come to its result.  What the program does in that time does not
depend on the stack: put the same program on another stack, and the two runs take the same steps
until the program has come to its result in both.

Often a program is run in the middle of another one: some steps that carry out nothing put frames on
the stack, then the program is run above them, and when the frames have its result, some steps more
make the result of the whole of it.  Then the whole relays the program.

Main statements: a program leaves the mask as it found it wherever it is run
(`Course.Part.mask_eq`), and a program that is run above frames is relayed (`Course.relays`).
-/

namespace Cancelable

variable {B : Backend} {P : Procedures} {ρ ρ' : Type}

/-! ## Parts -/

namespace State

variable {a b : Algebra} {α β : Type} {site : Site B a} {stack : Stack B P a α ρ}

theorem Back.height_eq {s : State B P ρ} (back : s.Back site stack) :
    s.stack.height = stack.height := by
  obtain ⟨f, calls, r, rfl⟩ := back
  rfl

theorem not_back_of_run {f : Fiber} {calls : Nat} {site' : Site B b} (p : Program B P b β)
    (stack' : Stack B P b β ρ) :
    ¬(⟨f, calls, site', .run p, stack'⟩ : State B P ρ).Back site stack := by
  rintro ⟨f', calls', r, same⟩
  cases same

theorem not_back_of_height {s : State B P ρ} (above : stack.height < s.stack.height) :
    ¬s.Back site stack := fun back =>
  absurd back.height_eq (Nat.ne_of_gt above)

/-- A step is taken before the program on a stack has come to its result. -/
def Away (site : Site B a) (stack : Stack B P a α ρ) (s : State B P ρ) (_ _ : Scene B) : Prop :=
  ¬s.Back site stack

end State

namespace Course

/-- From step `i` on the program `p` is run on a stack, and at step `j` it has come to the result
`r`. -/
structure Part (run : Nat → Course B P ρ) (f : Fiber) {a : Algebra} {α : Type} (site : Site B a)
    (stack : Stack B P a α ρ) (p : Program B P a α) (i j : Nat) (r : Except Interrupted α) :
    Prop where
  le : i ≤ j
  begins : ∃ calls, (run i).state = ⟨f, calls, site, .run p, stack⟩
  away : ∀ k, i ≤ k → k < j → ¬(run k).state.Back site stack
  pending : (run j).ending? = none
  returns : ∃ calls, (run j).state = ⟨f, calls, site, .give r, stack⟩

section Parts

variable {bodies : Bodies B P} {rt : Runtime} {others : Nat → Scene B → Scene B} {f : Fiber}
  {a : Algebra} {α β : Type} {site : Site B a} {stack : Stack B P a α ρ} {p : Program B P a α}
  {run : Nat → Course B P ρ} {i j j' : Nat} {r r' : Except Interrupted α}

theorem Part.back (part : Part run f site stack p i j r) : (run j).state.Back site stack := by
  obtain ⟨calls, state⟩ := part.returns
  exact ⟨f, calls, r, state⟩

/-- A program comes to its result once. -/
theorem Part.unique (part : Part run f site stack p i j r)
    (part' : Part run f site stack p i j' r') : j = j' ∧ r = r' := by
  have same : j = j' := by
    rcases Nat.lt_trichotomy j j' with lt | same | lt
    · exact absurd part.back (part'.away j part.le lt)
    · exact same
    · exact absurd part'.back (part.away j' part'.le lt)
  subst same
  obtain ⟨calls, state⟩ := part.returns
  obtain ⟨calls', state'⟩ := part'.returns
  rw [state] at state'
  cases state'
  exact ⟨rfl, rfl⟩

/-- A run that is not over at some step is not over before. -/
theorem pending_of_le (steps : ∀ n, run (n + 1) = (run n).next bodies rt others) (le : i ≤ j)
    (pending : (run j).ending? = none) : (run i).ending? = none := by
  induction le with
  | refl => exact pending
  | step _ ih =>
    rw [steps] at pending
    exact ih (pending_of_next pending)

/-- What holds at some step, and is kept by the steps before the program on a stack has come to its
result and by what others do, holds until then. -/
theorem invariant_of_away (steps : ∀ n, run (n + 1) = (run n).next bodies rt others)
    {I : State B P ρ → Scene B → Prop} (start : I (run i).state (run i).scene)
    (keep : ∀ {t t' : State B P ρ} {sc sc' : Scene B}, (t.step bodies rt sc).GoesTo t' sc' →
      ¬t.Back site stack → I t sc → I t' sc')
    (spared : ∀ {t : State B P ρ} {sc : Scene B} (n : Nat), I t sc → I t (others n sc)) {k : Nat}
    (le : i ≤ k) (away : ∀ l, i ≤ l → l < k → ¬(run l).state.Back site stack)
    (pending : (run k).ending? = none) : I (run k).state (run k).scene := by
  induction le with
  | refl => exact start
  | @step k le ih =>
    rw [steps] at pending ⊢
    obtain ⟨sc', goes, scene⟩ := goesTo_of_next pending
    have before := ih (fun l le lt => away l le (Nat.lt_succ_of_lt lt)) (pending_of_next pending)
    have next := keep goes (away k le (Nat.lt_succ_self k)) before
    rcases scene with same | ⟨n, changed⟩
    · rw [same]
      exact next
    · rw [changed]
      exact spared n next

end Parts

section Refused

variable {f : Fiber} {a : Algebra} {α : Type} {site : Site B a} {stack : Stack B P a α ρ}
  {p : Program B P a α} (bodies : Bodies B P) (rt : Runtime) (others : Nat → Scene B → Scene B)
  {calls : Nat} {sc : Scene B}

theorem course_of_refused (operation : p.isOperation = true)
    (refused : sc.fibers.isCanceled f = true) :
    course bodies rt others ⟨f, calls, site, .run p, stack⟩ sc 1 =
      { state := ⟨f, calls, site, .give (.error .canceled), stack⟩
        scene := sc.emit .cancellationObserved site.spans } :=
  next_of_idle rfl (State.run_of_canceled operation refused) (State.executes_of_canceled refused)

/-- An operation that is refused has come to the cancellation after a step. -/
theorem Part.refused (operation : p.isOperation = true)
    (refused : sc.fibers.isCanceled f = true) :
    Part (course bodies rt others ⟨f, calls, site, .run p, stack⟩ sc) f site stack p 0 1
      (.error .canceled) := by
  refine ⟨Nat.zero_le 1, ⟨calls, rfl⟩, ?_, ?_, ?_⟩
  · intro k _ lt
    obtain rfl := Nat.lt_one_iff.mp lt
    exact State.not_back_of_run p stack
  · rw [course_of_refused bodies rt others operation refused]
  · exact ⟨calls, congrArg state (course_of_refused bodies rt others operation refused)⟩

/-- An operation that is refused leaves the outline alone. -/
theorem outline_refused (operation : p.isOperation = true)
    (refused : sc.fibers.isCanceled f = true) :
    (course bodies rt others ⟨f, calls, site, .run p, stack⟩ sc 1).outline =
      (course bodies rt others ⟨f, calls, site, .run p, stack⟩ sc 0).outline := by
  rw [course_of_refused bodies rt others operation refused]
  rfl

end Refused

end Course

/-! ## The mask -/

/-- Walk from the stack `base`, whose top is at the mask depth `m`, up to the top of a stack that
has grown from it: the depth there is `n`. -/
inductive Stack.Climbs {b : Algebra} {β : Type} (site₀ : Site B b) (base : Stack B P b β ρ)
    (m : Nat) : {a : Algebra} → {α : Type} → Site B a → Stack B P a α ρ → Nat → Prop where
  | here : Climbs site₀ base m site₀ base m
  | cons {a : Algebra} {α γ : Type} {site : Site B a} {rest : Stack B P a γ ρ} {n n' : Nat}
      (frame : Frame B P a α γ) (shift : frame.shift n = some n')
      (h : Climbs site₀ base m site rest n) : Climbs site₀ base m site (.cons frame rest) n'
  | embedded {a c : Algebra} {α : Type} {outside : Site B a} {inside : Site B c}
      {rest : Stack B P a α ρ} (h : Climbs site₀ base m outside rest inside.entry) :
      Climbs site₀ base m inside (.embedded outside rest) inside.entry

namespace Stack.Climbs

variable {a b c : Algebra} {α β γ : Type} {site₀ : Site B b} {base : Stack B P b β ρ} {m n : Nat}
  {site : Site B a}

theorem grown {stack : Stack B P a α ρ} (h : Climbs site₀ base m site stack n) :
    Over site₀ base site stack := by
  induction h with
  | here => exact .here
  | cons _ _ _ ih => exact .cons ih
  | embedded _ ih => exact .embedded ih

/-- At the height of the base nothing has been put on top of it. -/
theorem eq_of_height_le {stack : Stack B P a α ρ} (h : Climbs site₀ base m site stack n)
    (le : stack.height ≤ base.height) : n = m := by
  cases h with
  | here => rfl
  | cons frame shift h =>
    exact absurd (Nat.lt_of_le_of_lt h.grown.height_le (Nat.lt_succ_self _)) (Nat.not_lt_of_le le)
  | embedded h =>
    exact absurd (Nat.lt_of_le_of_lt h.grown.height_le (Nat.lt_succ_self _)) (Nat.not_lt_of_le le)

/-- A state that has a result, but is not back on the base, has been put on top of it. -/
theorem of_cons {f : Fiber} {calls : Nat} {r : Except Interrupted α} {frame : Frame B P a α γ}
    {rest : Stack B P a γ ρ} (h : Climbs site₀ base m site (.cons frame rest) n)
    (away : ¬(⟨f, calls, site, .give r, .cons frame rest⟩ : State B P ρ).Back site₀ base) :
    ∃ k, frame.shift k = some n ∧ Climbs site₀ base m site rest k := by
  cases h with
  | here => exact absurd ⟨f, calls, r, rfl⟩ away
  | cons frame shift h => exact ⟨_, shift, h⟩

theorem of_embedded {f : Fiber} {calls : Nat} {r : Except Interrupted α} {outside : Site B c}
    {rest : Stack B P c α ρ} (h : Climbs site₀ base m site (.embedded outside rest) n)
    (away : ¬(⟨f, calls, site, .give r, .embedded outside rest⟩ : State B P ρ).Back site₀ base) :
    n = site.entry ∧ Climbs site₀ base m outside rest site.entry := by
  cases h with
  | here => exact absurd ⟨f, calls, r, rfl⟩ away
  | embedded h => exact ⟨rfl, h⟩

end Stack.Climbs

/-- Every move keeps the depth at the top of the stack and the mask depth together. -/
theorem Moves.climbs {b : Algebra} {β : Type} {site₀ : Site B b} {base : Stack B P b β ρ}
    {m k k' : Nat} {s s' : State B P ρ} (move : Moves s k s' k') (away : ¬s.Back site₀ base)
    (h : Stack.Climbs site₀ base m s.site s.stack k) :
    Stack.Climbs site₀ base m s'.site s'.stack k' := by
  cases move with
  | stay => exact h
  | push frame plain => exact .cons frame (Frame.shift_of_plain plain k) h
  | pop frame plain =>
    obtain ⟨l, shift, below⟩ := h.of_cons away
    rw [Frame.shift_of_plain plain] at shift
    cases shift
    exact below
  | enter => exact .cons (.region k) (if_pos rfl) h
  | @lower a α f calls site token p c stack =>
    exact .cons (.unmasked token.depth) (if_pos ⟨rfl, token.depth_pos⟩) h
  | finalize =>
    obtain ⟨l, shift, below⟩ := h.of_cons away
    cases shift
    exact .cons (.finalizing k) (if_pos rfl) below
  | restore frame holds =>
    obtain ⟨l, shift, below⟩ := h.of_cons away
    cases Frame.eq_of_shift holds shift
    exact below
  | embed => exact .embedded h
  | unembed => exact (h.of_embedded away).2

namespace Course

section Mask

variable {bodies : Bodies B P} {rt : Runtime} {others : Nat → Scene B → Scene B} {f : Fiber}
  {a : Algebra} {α : Type} {site : Site B a} {stack : Stack B P a α ρ} {p : Program B P a α}
  {run : Nat → Course B P ρ} {i j : Nat} {r : Except Interrupted α}

/-- While a program is run on a stack, what it has put on top says how far the mask is from where it
was. -/
theorem climbs_of_away (steps : ∀ n, run (n + 1) = (run n).next bodies rt others)
    (keeps : ∀ n (sc : Scene B), (others n sc).fibers.mask f = sc.fibers.mask f)
    (begins : ∃ calls control, (run i).state = ⟨f, calls, site, control, stack⟩) {k : Nat}
    (le : i ≤ k) (away : ∀ l, i ≤ l → l < k → ¬(run l).state.Back site stack)
    (pending : (run k).ending? = none) :
    (run k).state.fiber = f ∧
      Stack.Climbs site stack ((run i).scene.fibers.mask f) (run k).state.site (run k).state.stack
        ((run k).scene.fibers.mask f) := by
  refine invariant_of_away steps
    (I := fun s sc => s.fiber = f ∧
      Stack.Climbs site stack ((run i).scene.fibers.mask f) s.site s.stack (sc.fibers.mask f))
    ?_ ?_ ?_ le away pending
  · obtain ⟨calls, control, state⟩ := begins
    rw [state]
    exact ⟨rfl, .here⟩
  · rintro t t' sc sc' goes away ⟨rfl, climbs⟩
    have moves := State.moves_of_goesTo goes
    exact ⟨State.fiber_of_moves moves, moves.climbs away climbs⟩
  · rintro t sc n ⟨fiber, climbs⟩
    rw [keeps]
    exact ⟨fiber, climbs⟩

/-- A program that has come to its result leaves the mask as it found it. -/
theorem Part.mask_eq (steps : ∀ n, run (n + 1) = (run n).next bodies rt others)
    (keeps : ∀ n (sc : Scene B), (others n sc).fibers.mask f = sc.fibers.mask f)
    (part : Part run f site stack p i j r) :
    (run j).scene.fibers.mask f = (run i).scene.fibers.mask f := by
  obtain ⟨calls, begins⟩ := part.begins
  have climbs := climbs_of_away steps keeps ⟨calls, _, begins⟩ part.le part.away part.pending
  exact climbs.2.eq_of_height_le (Nat.le_of_eq part.back.height_eq)

/-- A program that is run on a stack has come to its result before anything is taken off the
stack. -/
theorem exists_part (steps : ∀ n, run (n + 1) = (run n).next bodies rt others)
    (keeps : ∀ n (sc : Scene B), (others n sc).fibers.mask f = sc.fibers.mask f) {calls n : Nat}
    (begins : (run i).state = ⟨f, calls, site, .run p, stack⟩) (le : i ≤ n)
    (pending : (run n).ending? = none) (low : (run n).state.stack.height < stack.height) :
    ∃ j r, j < n ∧ Part run f site stack p i j r := by
  have come : ∃ j, i ≤ j ∧ j < n ∧ (run j).state.Back site stack := by
    by_contra never
    have away (l : Nat) (le : i ≤ l) (lt : l < n) : ¬(run l).state.Back site stack :=
      fun back => never ⟨l, le, lt, back⟩
    obtain ⟨-, climbs⟩ := climbs_of_away steps keeps ⟨calls, _, begins⟩ le away pending
    exact absurd climbs.grown.height_le (Nat.not_le_of_lt low)
  classical
  obtain ⟨le, lt, back⟩ := Nat.find_spec come
  have away (l : Nat) (le : i ≤ l) (early : l < Nat.find come) : ¬(run l).state.Back site stack :=
    fun back => Nat.find_min come early ⟨le, Nat.lt_trans early lt, back⟩
  have pending := pending_of_le steps (Nat.le_of_lt lt) pending
  obtain ⟨fiber, -⟩ := climbs_of_away steps keeps ⟨calls, _, begins⟩ le away pending
  obtain ⟨f', calls', r, state⟩ := back
  rw [state] at fiber
  obtain rfl : f' = f := fiber
  exact ⟨Nat.find come, r, lt, le, ⟨calls, begins⟩, away, pending, ⟨calls', state⟩⟩

end Mask

/-! ## Twins stay twins -/

section Twins

variable {bodies : Bodies B P} {rt rt' : Runtime} {others : Nat → Scene B → Scene B}
  {b : Algebra} {β : Type} {made : Nat} {f : Fiber} {around : List Algebra → List Algebra → Prop}
  {site₀ site₀' : Site B b} {base : Stack B P b β ρ} {base' : Stack B P b β ρ'}
  {c : Course B P ρ} {c' : Course B P ρ'}

theorem BrokenOff.next (broken : BrokenOff f site₀ site₀' base base' c c') :
    BrokenOff f site₀ site₀' base base' (c.next bodies rt others) (c'.next bodies rt' others) := by
  obtain ⟨panic, ended, ended'⟩ := broken.broken
  rw [next_of_over ended, next_of_over ended']
  exact broken

/-- Runs that are paired stay so, or have broken off in the same way, as long as they are not back
on the stacks they were started on. -/
theorem Paired.orbit (paired : Paired made f around site₀ site₀' base base' c c')
    (unaware : Unaware others) (turns : ∀ n, rt.turns (n + made) = rt'.turns n)
    (base_fits : site₀.Fits around site₀')
    (around_cons : ∀ {l l' : List Algebra} (a : Algebra), around l l' → around (a :: l) (a :: l'))
    (n : Nat)
    (away : ∀ k, k < n →
      ¬(Cancelable.orbit (Course.next bodies rt others) c k).state.Back site₀ base) :
    Paired made f around site₀ site₀' base base'
        (Cancelable.orbit (Course.next bodies rt others) c n)
        (Cancelable.orbit (Course.next bodies rt' others) c' n) ∨
      BrokenOff f site₀ site₀' base base'
        (Cancelable.orbit (Course.next bodies rt others) c n)
        (Cancelable.orbit (Course.next bodies rt' others) c' n) := by
  induction n with
  | zero => exact .inl paired
  | succ n ih =>
    rcases ih fun k lt => away k (Nat.lt_succ_of_lt lt) with paired | broken
    · exact paired.next bodies rt rt' unaware (away n (Nat.lt_succ_self n)) turns base_fits
        around_cons
    · exact .inr broken.next

end Twins

/-! ## Programs that relay another one -/

section Relays

variable {bodies : Bodies B P} {rt : Runtime} {others : Nat → Scene B → Scene B} {f : Fiber}
  {a : Algebra} {α β : Type} {site : Site B a} {stack : Stack B P a β ρ}
  {stack' : Stack B P a α ρ'} {base : Stack B P a α ρ} {calls : Nat} {p : Program B P a α}
  {q : Program B P a β} {sc : Scene B} {φ : Fibers → Except Interrupted α → Except Interrupted β}

/-- The run of a program on a stack, `whole`, compared with the run of another one, `plain`, whose
results it relays.  As long as the other program has not come to its result, the two carry out the
same and wait as often, in scenes that differ in what was reported only.  The one program comes to
what `φ` makes of a result, and of the fibers then, exactly if the other one comes to that result.
If host code breaks off the other program, it breaks off the one in the same way, and what is below
is given up in scenes that differ in what was reported only. -/
structure Relays (f : Fiber) (site : Site B a) (stack : Stack B P a β ρ)
    (stack' : Stack B P a α ρ') (φ : Fibers → Except Interrupted α → Except Interrupted β)
    (q : Program B P a β) (p : Program B P a α) (whole : Nat → Course B P ρ)
    (plain : Nat → Course B P ρ') : Prop where
  goesOn : ∀ n, (∀ k, k ≤ n → ¬(plain k).state.Back site stack') → (plain n).ending? = none →
    ∃ k, n ≤ k ∧ (plain n).Alike (whole k) ∧ (whole k).ending? = none
  returns : ∀ n r, Part plain f site stack' p 0 n r →
    ∃ k, Part whole f site stack q 0 k (φ (plain n).scene.fibers r) ∧ (plain n).Alike (whole k)
  only : ∀ k r', Part whole f site stack q 0 k r' →
    ∃ n r, Part plain f site stack' p 0 n r ∧ r' = φ (plain n).scene.fibers r ∧
      (plain n).Alike (whole k)
  breaks : ∀ n panic, (∀ k, k < n → ¬(plain k).state.Back site stack') →
    (plain n).ending? = some (.panicked panic) →
      ∃ k, (plain n).operations = (whole k).operations ∧
        (whole k).ending? = some (.panicked panic) ∧
          ∃ sc sc', (plain n).scene = stack'.abandon f site sc ∧
            (whole k).scene = stack.abandon f site sc' ∧ sc.unreported = sc'.unreported

/-- Steps that carry out nothing lead to where the other program is run above frames.  From there on
the two runs are twins, until the other program has come to its result. -/
theorem exists_lead (stack' : Stack B P a α ρ') (unaware : Unaware others) {sc₀ : Scene B}
    (enters : State.Leads bodies rt (State.Away site stack) ⟨f, calls, site, .run q, stack⟩ sc
      ⟨f, calls, site, .run p, base⟩ sc₀)
    (same : sc₀.unreported = sc.unreported) :
    let whole := course bodies rt others ⟨f, calls, site, .run q, stack⟩ sc
    let plain := course bodies rt others ⟨f, calls, site, .run p, stack'⟩ sc
    ∃ lead, (∀ l, l < lead → ¬(whole l).state.Back site stack) ∧
      ∀ n, (∀ k, k < n → ¬(plain k).state.Back site stack') →
        Paired 0 f Eq site site stack' base (plain n) (whole (lead + n)) ∨
          BrokenOff f site site stack' base (plain n) (whole (lead + n)) := by
  intro whole plain
  obtain ⟨lead, entered, onTheWay⟩ :=
    orbit_of_leads others (c := { state := ⟨f, calls, site, .run q, stack⟩, scene := sc }) rfl
      enters
  have wholes (n : Nat) : whole n = _ := course_eq_orbit _ sc n
  have plains (n : Nat) : plain n = _ := course_eq_orbit _ sc n
  refine ⟨lead, ?_, ?_⟩
  · intro l lt
    obtain ⟨_, away⟩ := onTheWay l lt
    rw [wholes]
    exact away
  · intro n away
    have turns (n : Nat) : rt.turns (n + 0) = rt.turns n := rfl
    have paired : Paired 0 f Eq site site stack' base
        { state := ⟨f, calls, site, .run p, stack'⟩, scene := sc }
        { state := ⟨f, calls, site, .run p, base⟩, scene := sc₀ } :=
      ⟨rfl, rfl, .mk calls (.run p) .here, rfl, rfl, same.symm⟩
    rw [wholes, plains, ← orbit_add, entered]
    refine paired.orbit unaware turns ⟨rfl, rfl⟩ Likeness.cons_congr n ?_
    intro k lt
    rw [← plains]
    exact away k lt

/-- What is above a higher stack is not back on the stack. -/
theorem Paired.not_back {c : Course B P ρ'} {c' : Course B P ρ}
    (paired : Paired 0 f Eq site site stack' base c c') (higher : stack.height < base.height) :
    ¬c'.state.Back site stack := by
  intro back
  have le := paired.twin.grown'.height_le
  rw [back.height_eq] at le
  exact absurd higher (Nat.not_lt_of_le le)

/-- A program that is run above frames is relayed by what puts them on the stack, if the frames make
of its result, by steps that carry out nothing, the result of the whole. -/
theorem relays (unaware : Unaware others) {sc₀ : Scene B}
    (enters : State.Leads bodies rt (State.Away site stack) ⟨f, calls, site, .run q, stack⟩ sc
      ⟨f, calls, site, .run p, base⟩ sc₀)
    (same : sc₀.unreported = sc.unreported) (higher : stack.height < base.height)
    (abandon : ∀ sc, base.abandon f site sc = stack.abandon f site sc)
    (leaves : ∀ n r,
      Part (course bodies rt others ⟨f, calls, site, .run p, stack'⟩ sc) f site stack' p 0 n r →
        ∀ calls₁ sc₁,
          sc₁.unreported =
              (course bodies rt others ⟨f, calls, site, .run p, stack'⟩ sc n).scene.unreported →
            ∃ sc₂, sc₂.unreported = sc₁.unreported ∧
              State.Leads bodies rt (State.Away site stack) ⟨f, calls₁, site, .give r, base⟩ sc₁
                ⟨f, calls₁, site, .give (φ sc₁.fibers r), stack⟩ sc₂) :
    Relays f site stack stack' φ q p
      (course bodies rt others ⟨f, calls, site, .run q, stack⟩ sc)
      (course bodies rt others ⟨f, calls, site, .run p, stack'⟩ sc) := by
  let whole := course bodies rt others ⟨f, calls, site, .run q, stack⟩ sc
  let plain := course bodies rt others ⟨f, calls, site, .run p, stack'⟩ sc
  obtain ⟨lead, begun, twins⟩ := exists_lead stack' unaware enters same
  have unfinished {n : Nat} (early : ∀ k, k < n → ¬(plain k).state.Back site stack')
      (pending : (plain n).ending? = none) :
      (plain n).Paired 0 f Eq site site stack' base (whole (lead + n)) := by
    rcases twins n early with paired | broken
    · exact paired
    · obtain ⟨panic, ended, -⟩ := broken.broken
      cases pending.symm.trans ended
  have above {n : Nat} (early : ∀ k, k < n → ¬(plain k).state.Back site stack')
      (pending : (plain n).ending? = none) {l : Nat} (le : l ≤ lead + n) :
      ¬(whole l).state.Back site stack := by
    by_cases late : lead ≤ l
    · obtain ⟨k, rfl⟩ := Nat.exists_eq_add_of_le late
      have le : k ≤ n := Nat.le_of_add_le_add_left le
      have pending : (plain k).ending? = none := pending_of_le (fun _ => rfl) le pending
      exact (unfinished (fun l lt => early l (Nat.lt_of_lt_of_le lt le)) pending).not_back higher
    · exact begun l (Nat.lt_of_not_le late)
  have returns (n : Nat) (r : Except Interrupted α) (part : Part plain f site stack' p 0 n r) :
      ∃ k, Part whole f site stack q 0 k (φ (plain n).scene.fibers r) ∧
        (plain n).Alike (whole k) := by
    have early (k : Nat) (lt : k < n) : ¬(plain k).state.Back site stack' :=
      part.away k (Nat.zero_le k) lt
    have paired := unfinished early part.pending
    obtain ⟨calls', r', state, state'⟩ := paired.twin.back part.back
    obtain rfl : r' = r := by
      obtain ⟨calls, returned⟩ := part.returns
      rw [state] at returned
      cases returned
      rfl
    obtain ⟨sc₂, quiet, leads⟩ :=
      leaves n r' part calls' (whole (lead + n)).scene paired.alike.scene.symm
    rw [← state'] at leads
    obtain ⟨k, left, onTheWay⟩ := orbit_of_leads others paired.pending' leads
    rw [← course_add] at left
    have left : whole (lead + n + k) = _ := left
    have fibers := (Scene.unreported_eq_iff.mp paired.alike.scene).1
    refine ⟨lead + n + k, ⟨Nat.zero_le _, ⟨calls, rfl⟩, ?_, ?_, ?_⟩, ?_⟩
    · intro l _ lt
      by_cases late : lead + n ≤ l
      · obtain ⟨l, rfl⟩ := Nat.exists_eq_add_of_le late
        obtain ⟨_, away⟩ := onTheWay l (Nat.lt_of_add_lt_add_left lt)
        rw [← course_add] at away
        exact away
      · exact above early part.pending (Nat.le_of_not_le late)
    · rw [left]
      exact paired.pending'
    · rw [left, fibers]
      exact ⟨calls', rfl⟩
    · rw [left]
      exact ⟨paired.alike.operations_eq, paired.alike.waits_eq,
        paired.alike.scene.trans quiet.symm⟩
  refine ⟨?_, returns, ?_, ?_⟩
  · intro n early pending
    have paired := unfinished (fun k lt => early k (Nat.le_of_lt lt)) pending
    exact ⟨lead + n, Nat.le_add_left n lead, paired.alike, paired.pending'⟩
  · intro k r' whole_part
    by_cases come : ∃ n, lead + n ≤ k ∧ (plain n).state.Back site stack'
    · -- the first time that the other program is back it has come to its result
      classical
      let n := Nat.find come
      obtain ⟨le, back⟩ : lead + n ≤ k ∧ (plain n).state.Back site stack' := Nat.find_spec come
      have early (l : Nat) (lt : l < n) : ¬(plain l).state.Back site stack' := fun back =>
        Nat.find_min come lt ⟨by omega, back⟩
      have pending : (plain n).ending? = none := by
        rcases twins n early with paired | broken
        · exact paired.pending
        · obtain ⟨panic, -, ended⟩ := broken.broken
          have pending : (whole (lead + n)).ending? = none :=
            pending_of_le (fun _ => rfl) le whole_part.pending
          cases pending.symm.trans ended
      obtain ⟨calls', r, state, -⟩ := (unfinished early pending).twin.back back
      have part : Part plain f site stack' p 0 n r :=
        ⟨Nat.zero_le n, ⟨calls, rfl⟩, fun l _ lt => early l lt, pending, ⟨calls', state⟩⟩
      obtain ⟨k', whole_part', alike⟩ := returns n r part
      obtain ⟨rfl, rfl⟩ := whole_part.unique whole_part'
      exact ⟨n, r, part, rfl, alike⟩
    · -- otherwise the whole is still on its way to the frames, or above them
      exfalso
      by_cases late : lead ≤ k
      · obtain ⟨n, rfl⟩ := Nat.exists_eq_add_of_le late
        have early (l : Nat) (lt : l < n) : ¬(plain l).state.Back site stack' := fun back =>
          come ⟨l, by omega, back⟩
        rcases twins n early with paired | broken
        · exact paired.not_back higher whole_part.back
        · obtain ⟨panic, -, ended⟩ := broken.broken
          cases whole_part.pending.symm.trans ended
      · exact begun k (Nat.lt_of_not_le late) whole_part.back
  · intro n panic early ended
    rcases twins n early with paired | ⟨operations, -, broken, sc₁, sc₂, scene, scene', alike⟩
    · cases paired.pending.symm.trans ended
    · obtain ⟨panic', broken, broken'⟩ := broken
      cases ended.symm.trans broken
      rw [abandon] at scene'
      exact ⟨lead + n, operations, broken', sc₁, sc₂, scene, scene', alike⟩

end Relays

end Course
end Cancelable
