import Cancelable.Proofs.Discipline
import Cancelable.Proofs.Looks

/-!
# Twin runs

The same program is run twice: on two stacks, in two fibers, in two scenes.  As long as it cannot
tell the scenes apart, the two runs take the same steps.  What the scenes have to have in common is
left open here.  It is a likeness, and it says what host code under a discipline finds in a scene,
that the mask depths agree, and that whatever a step does to one scene it may do to both.

A likeness need not say whether a cancellation is requested.  So it has to be known in addition that
the looks for a cancellation, of which a step takes at most two, find the same in both scenes.

Main statements: two runs that are twins take the same step (`State.Twin.step`), and carry out the
same operation in it (`State.Twin.executes_eq`), until they are back on the stacks they were started
on.
-/

namespace Cancelable

variable {B : Backend} {P : Procedures} {ρ ρ' : Type}

/-! ## Likenesses -/

/-- A way to compare a scene, seen from the fiber `f`, with another one, seen from the fiber `f'`.
The names of the programs around are compared as well, as they are part of what is reported. -/
structure Likeness (D : Discipline B) (f f' : Fiber) where
  alike : Scene B → Scene B → Prop
  around : List Algebra → List Algebra → Prop
  around_cons : ∀ {l l' : List Algebra} (a : Algebra), around l l' → around (a :: l) (a :: l')
  mask_eq : ∀ {sc sc' : Scene B}, alike sc sc' → sc.fibers.mask f = sc'.fibers.mask f'
  host : ∀ {sc sc' : Scene B} {α : Type} {code : Host B.World α}, D.code code → alike sc sc' →
    (sc.host code).1 = (sc'.host code).1 ∧ alike (sc.host code).2 (sc'.host code).2
  emit : ∀ {sc sc' : Scene B} {l l' : List Algebra} (h : Happening), around l l' → alike sc sc' →
    alike (sc.emit h l) (sc'.emit h l')
  setMask : ∀ {sc sc' : Scene B} (n : Nat), alike sc sc' →
    alike (sc.setMask f n) (sc'.setMask f' n)
  cancel : ∀ {sc sc' : Scene B}, alike sc sc' →
    alike { sc with fibers := sc.fibers.cancel f } { sc' with fibers := sc'.fibers.cancel f' }

/-- The same programs around, where a program was put around both. -/
theorem Likeness.cons_congr {l l' : List Algebra} (a : Algebra) (same : l = l') :
    a :: l = a :: l' :=
  congrArg (a :: ·) same

/-! ## Twins -/

/-- Two sites are as good as each other: they have the same handle, and the programs around them are
compared by a relation. -/
structure Site.Fits (around : List Algebra → List Algebra → Prop) {a : Algebra}
    (site site' : Site B a) : Prop where
  handle_eq : site.handle = site'.handle
  around : around site.around site'.around

/-- Two stacks, with the sites at their tops, that have grown in the same way, each from a base of
its own. -/
inductive Stack.Twin (around : List Algebra → List Algebra → Prop) {b : Algebra} {β : Type}
    (site₀ site₀' : Site B b) (base : Stack B P b β ρ) (base' : Stack B P b β ρ') :
    {a : Algebra} → {α : Type} → Site B a → Site B a → Stack B P a α ρ → Stack B P a α ρ' →
      Prop where
  | here : Twin around site₀ site₀' base base' site₀ site₀' base base'
  | cons {a : Algebra} {α γ : Type} {site site' : Site B a} {rest : Stack B P a γ ρ}
      {rest' : Stack B P a γ ρ'} (frame : Frame B P a α γ)
      (h : Twin around site₀ site₀' base base' site site' rest rest') :
      Twin around site₀ site₀' base base' site site' (.cons frame rest) (.cons frame rest')
  | embedded {a c : Algebra} {α : Type} {outside outside' : Site B a} {inside inside' : Site B c}
      {rest : Stack B P a α ρ} {rest' : Stack B P a α ρ'} (fits : inside.Fits around inside')
      (entry_eq : inside.entry = inside'.entry)
      (h : Twin around site₀ site₀' base base' outside outside' rest rest') :
      Twin around site₀ site₀' base base' inside inside' (.embedded outside rest)
        (.embedded outside' rest')

/-- Two programs in progress, in the fibers `f` and `f'`, that do the same next on stacks that are
twins.  The first one has made `made` blocking calls more. -/
inductive State.Twin (made : Nat) (f f' : Fiber) (around : List Algebra → List Algebra → Prop)
    {b : Algebra} {β : Type} (site₀ site₀' : Site B b) (base : Stack B P b β ρ)
    (base' : Stack B P b β ρ') : State B P ρ → State B P ρ' → Prop where
  | mk {a : Algebra} {α : Type} {site site' : Site B a} {stack : Stack B P a α ρ}
      {stack' : Stack B P a α ρ'} (calls : Nat) (control : Control B P a α)
      (h : Stack.Twin around site₀ site₀' base base' site site' stack stack') :
      Twin made f f' around site₀ site₀' base base' ⟨f, calls + made, site, control, stack⟩
        ⟨f', calls, site', control, stack'⟩

/-- The program that was put on a stack has come to its result. -/
def State.Back {b : Algebra} {β : Type} (site₀ : Site B b) (base : Stack B P b β ρ)
    (s : State B P ρ) : Prop :=
  ∃ f calls r, s = ⟨f, calls, site₀, .give r, base⟩

/-- Two steps lead to twins in scenes that are alike, or both break off.  Then the scenes were alike
before the programs on the stacks were given up. -/
inductive Next.Twin {D : Discipline B} {f f' : Fiber} (L : Likeness D f f') (made : Nat)
    {b : Algebra} {β : Type} (site₀ site₀' : Site B b) (base : Stack B P b β ρ)
    (base' : Stack B P b β ρ') (giveUp giveUp' : Scene B → Scene B) :
    Next B P ρ → Next B P ρ' → Prop where
  | more {s : State B P ρ} {s' : State B P ρ'} {sc sc' : Scene B}
      (twin : State.Twin made f f' L.around site₀ site₀' base base' s s') (alike : L.alike sc sc') :
      Twin L made site₀ site₀' base base' giveUp giveUp' (.more s sc) (.more s' sc')
  | waiting {s : State B P ρ} {s' : State B P ρ'} {sc sc' : Scene B}
      (twin : State.Twin made f f' L.around site₀ site₀' base base' s s') (alike : L.alike sc sc') :
      Twin L made site₀ site₀' base base' giveUp giveUp' (.waiting s sc) (.waiting s' sc')
  | panicked {sc sc' : Scene B} (panic : Panic) (alike : L.alike sc sc') :
      Twin L made site₀ site₀' base base' giveUp giveUp' (.panicked panic (giveUp sc))
        (.panicked panic (giveUp' sc'))

/-- What the frame on top will run or make of a value keeps a discipline. -/
def Stack.TopObeys (D : Discipline B) {a : Algebra} {α : Type} : Stack B P a α ρ → Prop
  | .cons frame _ => frame.Obeys D
  | _ => True

theorem Stack.Obeys.topObeys {D : Discipline B} {a : Algebra} {α : Type} {stack : Stack B P a α ρ}
    (obeys : stack.Obeys D) : stack.TopObeys D := by
  cases stack with
  | cons frame rest => exact obeys.1
  | _ => exact trivial

section Twins

variable {D : Discipline B} {f f' : Fiber} {L : Likeness D f f'} {a b : Algebra} {α β γ : Type}
  {site₀ site₀' : Site B b} {base : Stack B P b β ρ} {base' : Stack B P b β ρ'}
  {made calls : Nat} {site site' : Site B a} {stack : Stack B P a α ρ} {stack' : Stack B P a α ρ'}
  {sc sc' : Scene B} {giveUp giveUp' : Scene B → Scene B} {rt rt' : Runtime}

/-! ## Twins are over their bases -/

namespace Stack.Twin

variable {around : List Algebra → List Algebra → Prop}

theorem grown (h : Twin around site₀ site₀' base base' site site' stack stack') :
    Over site₀ base site stack := by
  induction h with
  | here => exact .here
  | cons frame _ ih => exact .cons ih
  | embedded _ _ _ ih => exact .embedded ih

theorem grown' (h : Twin around site₀ site₀' base base' site site' stack stack') :
    Over site₀' base' site' stack' := by
  induction h with
  | here => exact .here
  | cons frame _ ih => exact .cons ih
  | embedded _ _ _ ih => exact .embedded ih

theorem fits (base_fits : site₀.Fits around site₀')
    (h : Twin around site₀ site₀' base base' site site' stack stack') :
    site.Fits around site' := by
  induction h with
  | here => exact base_fits
  | cons frame _ ih => exact ih
  | embedded fits _ _ _ => exact fits

/-- On the base of the first stack the second one is its own base. -/
theorem eq_base {stack' : Stack B P b β ρ'} {site' : Site B b}
    (h : Twin around site₀ site₀' base base' site₀ site' base stack') :
    site' = site₀' ∧ stack' = base' := by
  cases h with
  | here => exact ⟨rfl, rfl⟩
  | cons frame h => exact absurd h.grown.height_le (Nat.not_succ_le_self _)
  | embedded fits entry_eq h => exact absurd h.grown.height_le (Nat.not_succ_le_self _)

end Stack.Twin

theorem State.Twin.grown {around : List Algebra → List Algebra → Prop} {s : State B P ρ}
    {s' : State B P ρ'} (twin : Twin made f f' around site₀ site₀' base base' s s') :
    s.Over site₀ base := by
  cases twin with
  | mk calls control h => exact h.grown

theorem State.Twin.grown' {around : List Algebra → List Algebra → Prop} {s : State B P ρ}
    {s' : State B P ρ'} (twin : Twin made f f' around site₀ site₀' base base' s s') :
    s'.Over site₀' base' := by
  cases twin with
  | mk calls control h => exact h.grown'

/-- A twin of a program that is back is back. -/
theorem State.Twin.back {around : List Algebra → List Algebra → Prop} {s : State B P ρ}
    {s' : State B P ρ'} (twin : Twin made f f' around site₀ site₀' base base' s s')
    (back : s.Back site₀ base) :
    ∃ calls r, s = ⟨f, calls + made, site₀, .give r, base⟩ ∧
      s' = ⟨f', calls, site₀', .give r, base'⟩ := by
  obtain ⟨g, calls, r, rfl⟩ := back
  cases twin with
  | mk calls control h =>
    obtain ⟨rfl, rfl⟩ := h.eq_base
    exact ⟨calls, r, rfl, rfl⟩

/-! ## Parts of a step -/

namespace State

theorem twin_yield (r : Except Interrupted α)
    (twin : Stack.Twin L.around site₀ site₀' base base' site site' stack stack')
    (alike : L.alike sc sc') :
    Next.Twin L made site₀ site₀' base base' giveUp giveUp' (yield f (calls + made) site r stack sc)
      (yield f' calls site' r stack' sc') :=
  .more (.mk calls (.give r) twin) alike

theorem twin_goOn (p : Program B P a α)
    (twin : Stack.Twin L.around site₀ site₀' base base' site site' stack stack')
    (alike : L.alike sc sc') :
    Next.Twin L made site₀ site₀' base base' giveUp giveUp' (goOn f (calls + made) site p stack sc)
      (goOn f' calls site' p stack' sc') :=
  .more (.mk calls (.run p) twin) alike

theorem twin_blocking (turns : ∀ n, rt.turns (n + made) = rt'.turns n)
    (code : Host B.World (Except Failure α))
    (twin : Stack.Twin L.around site₀ site₀' base base' site site' stack stack')
    (alike : L.alike sc sc') :
    Next.Twin L made site₀ site₀' base base' giveUp giveUp'
      (blocking f (calls + made) site rt code stack sc)
      (blocking f' calls site' rt' code stack' sc') := by
  have made_more : calls + made + 1 = calls + 1 + made := Nat.add_right_comm calls made 1
  rw [blocking, blocking, turns, made_more]
  exact .more (.mk (calls + 1) (.block (rt'.turns calls) code) twin) alike

theorem twin_hosting {code : Host B.World γ} (obeys : D.code code) (alike : L.alike sc sc')
    {next : γ → Scene B → Next B P ρ} {next' : γ → Scene B → Next B P ρ'}
    (rest : ∀ x sc₁ sc₁', L.alike sc₁ sc₁' →
      Next.Twin L made site₀ site₀' base base' (stack.abandon f site) (stack'.abandon f' site')
        (next x sc₁) (next' x sc₁')) :
    Next.Twin L made site₀ site₀' base base' (stack.abandon f site) (stack'.abandon f' site')
      (hosting f site code stack sc next) (hosting f' site' code stack' sc' next') := by
  obtain ⟨exits, scenes⟩ := L.host obeys alike
  unfold hosting
  cases e : sc.host code with
  | mk exit sc₁ =>
    cases e' : sc'.host code with
    | mk exit' sc₁' =>
      rw [e, e'] at exits scenes
      obtain rfl : exit = exit' := exits
      cases exit with
      | ok x => exact rest x sc₁ sc₁' scenes
      | error panic => exact .panicked panic scenes

theorem twin_thunk {code : Host B.World γ} (obeys : D.code code) (r : γ → Except Interrupted α)
    (twin : Stack.Twin L.around site₀ site₀' base base' site site' stack stack')
    (alike : L.alike sc sc') :
    Next.Twin L made site₀ site₀' base base' (stack.abandon f site) (stack'.abandon f' site')
      (hosting f site code stack sc fun x sc => yield f (calls + made) site (r x) stack sc)
      (hosting f' site' code stack' sc' fun x sc => yield f' calls site' (r x) stack' sc) :=
  twin_hosting obeys alike fun x _ _ alike => twin_yield (r x) twin alike

theorem twin_observing (fits : site.Fits L.around site')
    (twin : Stack.Twin L.around site₀ site₀' base base' site site' stack stack')
    (alike : L.alike sc sc')
    (look : sc.fibers.isCanceled f = sc'.fibers.isCanceled f')
    {next : Scene B → Next B P ρ} {next' : Scene B → Next B P ρ'}
    (rest : Next.Twin L made site₀ site₀' base base' giveUp giveUp' (next sc) (next' sc')) :
    Next.Twin L made site₀ site₀' base base' giveUp giveUp'
      (observing f (calls + made) site stack sc next)
      (observing f' calls site' stack' sc' next') := by
  cases found : sc.fibers.isCanceled f with
  | true =>
    rw [observing_of_canceled found, observing_of_canceled (look ▸ found)]
    exact twin_yield _ twin (L.emit _ (L.around_cons a fits.around) alike)
  | false =>
    rw [observing_of_clear found, observing_of_clear (look ▸ found)]
    exact rest

/-! ## Running a program -/

theorem run_twin {bodies : Bodies B P} {p : Program B P a α}
    (turns : ∀ n, rt.turns (n + made) = rt'.turns n) (kept : D.Kept bodies)
    (obeys : p.Obeys D) (fits : site.Fits L.around site')
    (twin : Stack.Twin L.around site₀ site₀' base base' site site' stack stack')
    (alike : L.alike sc sc')
    (look : p.isOperation = true → sc.fibers.isCanceled f = sc'.fibers.isCanceled f')
    (again : p.findsAgain sc.fibers f = p.findsAgain sc'.fibers f') :
    Next.Twin L made site₀ site₀' base base' (stack.abandon f site) (stack'.abandon f' site')
      (run bodies rt f (calls + made) site p stack sc)
      (run bodies rt' f' calls site' p stack' sc') := by
  have depth : sc'.fibers.mask f' = sc.fibers.mask f := (L.mask_eq alike).symm
  have spans : L.around site.spans site'.spans := L.around_cons a fits.around
  cases p with
  | pure x => exact twin_yield (.ok x) twin alike
  | build code k =>
    exact twin_hosting obeys.1 alike fun x _ _ alike => twin_goOn (k x) twin alike
  | call procedure => exact twin_goOn _ twin alike
  | map p g => exact twin_goOn p (.cons (.map g) twin) alike
  | bind p k => exact twin_goOn p (.cons (.bind k) twin) alike
  | op o =>
    refine twin_observing fits twin alike (look rfl) ?_
    rw [fits.handle_eq]
    exact twin_blocking turns _ twin (L.emit _ spans alike)
  | raw code =>
    refine twin_observing fits twin alike (look rfl) ?_
    rw [fits.handle_eq]
    exact twin_blocking turns _ twin alike
  | delay code => exact twin_observing fits twin alike (look rfl) (twin_thunk obeys _ twin alike)
  | suspend hint code =>
    refine twin_observing fits twin alike (look rfl) ?_
    split
    · exact twin_blocking turns code twin alike
    · exact twin_thunk obeys _ twin alike
  | raise failure => exact twin_observing fits twin alike (look rfl) (twin_yield _ twin alike)
  | monotonic =>
    exact twin_observing fits twin alike (look rfl) (twin_thunk kept.monotonic _ twin alike)
  | realtime =>
    exact twin_observing fits twin alike (look rfl) (twin_thunk kept.realtime _ twin alike)
  | canceled =>
    refine twin_observing fits twin alike (look rfl) ?_
    have requested := L.cancel alike
    exact twin_observing fits twin requested again (twin_yield _ twin requested)
  | embed handle p =>
    refine twin_observing fits twin alike (look rfl) ?_
    rw [depth]
    exact twin_goOn p (.embedded ⟨rfl, spans⟩ rfl twin) alike
  | handleError p handler =>
    exact twin_observing fits twin alike (look rfl)
      (twin_goOn p (.cons (.recover handler) twin) alike)
  | forceR p q =>
    exact twin_observing fits twin alike (look rfl) (twin_goOn p (.cons (.forceR q) twin) alike)
  | onCancel p finalizer =>
    exact twin_observing fits twin alike (look rfl)
      (twin_goOn p (.cons (.onCancel finalizer) twin) alike)
  | uncancelable body =>
    -- both bodies get the same token
    refine twin_observing fits twin alike (look rfl) ?_
    simp only [depth]
    exact twin_goOn _ (.cons (.region (sc.fibers.mask f)) twin) (L.setMask _ alike)
  | poll token p =>
    refine twin_observing fits twin alike (look rfl) ?_
    simp only [depth]
    split
    · next own =>
      have lowered := L.setMask token.outer alike
      have second : (sc.setMask f token.outer).fibers.isCanceled f =
          (sc'.setMask f' token.outer).fibers.isCanceled f' := by
        simpa [Program.findsAgain, depth, own] using again
      exact twin_observing fits (.cons _ twin) lowered second
        (twin_goOn p (.cons (.unmasked (sc.fibers.mask f)) twin) lowered)
    · exact twin_goOn p twin alike

/-! ## Giving a result -/

theorem resume_twin {frame : Frame B P a α γ} {rest : Stack B P a γ ρ} {rest' : Stack B P a γ ρ'}
    (r : Except Interrupted α) (obeys : frame.Obeys D) (fits : site.Fits L.around site')
    (twin : Stack.Twin L.around site₀ site₀' base base' site site' rest rest')
    (alike : L.alike sc sc')
    (look : ∀ level, frame.looksAt? = some level →
      (sc.setMask f level).fibers.isCanceled f = (sc'.setMask f' level).fibers.isCanceled f') :
    Next.Twin L made site₀ site₀' base base' (rest.abandon f site) (rest'.abandon f' site')
      (resume f (calls + made) site frame r rest sc) (resume f' calls site' frame r rest' sc') := by
  have depth : sc'.fibers.mask f' = sc.fibers.mask f := (L.mask_eq alike).symm
  have spans : L.around site.spans site'.spans := L.around_cons a fits.around
  cases frame with
  | map g =>
    cases r with
    | ok x => exact twin_thunk (obeys x) .ok twin alike
    | error i => exact twin_yield (.error i) twin alike
  | bind k =>
    cases r with
    | ok x => exact twin_goOn (k x) twin alike
    | error i => exact twin_yield (.error i) twin alike
  | recover handler =>
    rcases r with (failure | _) | x
    · exact twin_goOn (handler failure) twin (L.emit _ spans alike)
    · exact twin_yield (.error .canceled) twin alike
    · exact twin_yield (.ok x) twin alike
  | forceR next =>
    rcases r with (failure | _) | x
    · exact twin_goOn next twin alike
    · exact twin_yield (.error .canceled) twin alike
    · exact twin_goOn next twin alike
  | onCancel finalizer =>
    rcases r with (failure | _) | x
    · exact twin_yield (.error (.errored failure)) twin alike
    · simp only [resume, depth]
      exact twin_goOn finalizer (.cons (.finalizing (sc.fibers.mask f)) twin) (L.setMask _ alike)
    · exact twin_yield (.ok x) twin alike
  | finalizing level =>
    have restored := L.setMask level alike
    rcases r with (failure | _) | x
    · exact twin_yield _ twin (L.emit _ spans restored)
    · exact twin_yield _ twin restored
    · exact twin_yield _ twin restored
  | region level =>
    have restored := L.setMask level alike
    exact twin_observing fits twin restored (look level rfl) (twin_yield r twin restored)
  | unmasked level => exact twin_yield r twin (L.setMask level alike)

/-! ## The step -/

/-- Two programs that are twins take the same step, in scenes that are alike, if the looks that the
step takes find the same in both, and unless they are back where they were started. -/
theorem Twin.step {bodies : Bodies B P} {s : State B P ρ} {s' : State B P ρ'}
    (turns : ∀ n, rt.turns (n + made) = rt'.turns n) (kept : D.Kept bodies)
    (base_fits : site₀.Fits L.around site₀')
    (twin : Twin made f f' L.around site₀ site₀' base base' s s') (alike : L.alike sc sc')
    (away : ¬s.Back site₀ base) (obeys : s.control.Obeys D)
    (top : ∀ r, s.control = .give r → s.stack.TopObeys D) (looks : s.looks sc = s'.looks sc') :
    Next.Twin L made site₀ site₀' base base' s.abandon s'.abandon (s.step bodies rt sc)
      (s'.step bodies rt' sc') := by
  cases twin with
  | @mk a α site site' stack stack' calls control twin =>
    have fits : site.Fits L.around site' := twin.fits base_fits
    cases control with
    | run p =>
      obtain ⟨look, again⟩ := Prod.mk.inj looks
      refine run_twin turns kept obeys fits twin alike ?_ again
      intro operation
      simpa [operation] using look
    | give r =>
      cases twin with
      | here => exact absurd ⟨f, _, r, rfl⟩ away
      | cons frame twin =>
        refine resume_twin r (top r rfl) fits twin alike ?_
        intro level region
        cases frame with
        | region l =>
          cases region
          exact congrArg Prod.fst looks
        | _ => cases region
      | embedded fits entry_eq twin =>
        simp only [State.step, give, entry_eq]
        exact twin_yield r twin (L.setMask _ alike)
    | block turns code =>
      cases turns with
      | zero => exact twin_thunk obeys (fun result => result.mapError .errored) twin alike
      | succ turns => exact .waiting (.mk calls (.block turns code) twin) alike

/-- Twins whose looks find the same carry out the same operation. -/
theorem Twin.executes_eq {s : State B P ρ} {s' : State B P ρ'}
    {around : List Algebra → List Algebra → Prop} (base_fits : site₀.Fits around site₀')
    (twin : Twin made f f' around site₀ site₀' base base' s s')
    (looks : s.looks sc = s'.looks sc') : s'.executes sc' = s.executes sc := by
  cases twin with
  | @mk a α site site' stack stack' calls control twin =>
    cases control with
    | run p =>
      obtain ⟨look, _⟩ := Prod.mk.inj looks
      have handle := (twin.fits base_fits).handle_eq
      cases leaf : p.isLeaf with
      | true =>
        have operation := Program.isOperation_of_isLeaf leaf
        have same : sc.fibers.isCanceled f = sc'.fibers.isCanceled f' := by
          simpa [operation] using look
        simp [executes, leaf, same, handle]
      | false => simp [executes, leaf]
    | give r => rfl
    | block turns code => rfl

/-! ## Where the looks find the same -/

/-- If the cancellation is requested in both scenes or in none, the looks find the same. -/
theorem Twin.looks_eq {s : State B P ρ} {s' : State B P ρ'}
    {around : List Algebra → List Algebra → Prop}
    (twin : Twin made f f' around site₀ site₀' base base' s s') (away : ¬s.Back site₀ base)
    (requested : sc.fibers.isRequested f = sc'.fibers.isRequested f')
    (depth : sc.fibers.mask f = sc'.fibers.mask f') : s.looks sc = s'.looks sc' := by
  have after (n : Nat) :
      (sc.fibers.setMask f n).isCanceled f = (sc'.fibers.setMask f' n).isCanceled f' :=
    Fibers.isCanceled_congr (by simpa using requested) (by simp)
  cases twin with
  | @mk a α site site' stack stack' calls control twin =>
    cases control with
    | run p =>
      have look : sc.fibers.isCanceled f = sc'.fibers.isCanceled f' :=
        Fibers.isCanceled_congr requested depth
      have again : p.findsAgain sc.fibers f = p.findsAgain sc'.fibers f' := by
        cases p with
        | canceled =>
          refine Fibers.isCanceled_congr ?_ depth
          simp [Fibers.isRequested_cancel]
        | poll token p => simp only [Program.findsAgain, depth, after]
        | _ => rfl
      simp only [State.looks, look, again]
    | give r =>
      cases twin with
      | here => exact absurd ⟨f, _, r, rfl⟩ away
      | cons frame twin =>
        cases frame with
        | region level => exact Prod.ext (after level) rfl
        | _ => rfl
      | embedded => rfl
    | block turns code => rfl

end State

/-! ## Giving up twins -/

/-- Twins that are given up set the same depths, down to the stacks they were started on. -/
theorem Stack.Twin.abandon
    (twin : Twin L.around site₀ site₀' base base' site site' stack stack')
    (alike : L.alike sc sc') :
    ∃ sc₁ sc₁', stack.abandon f site sc = base.abandon f site₀ sc₁ ∧
      stack'.abandon f' site' sc' = base'.abandon f' site₀' sc₁' ∧ L.alike sc₁ sc₁' := by
  induction twin generalizing sc sc' with
  | here => exact ⟨sc, sc', rfl, rfl, alike⟩
  | cons frame _ ih => exact ih alike
  | @embedded a c α outside outside' inside inside' rest rest' fits entry_eq _ ih =>
    simp only [Stack.abandon, entry_eq]
    exact ih (L.setMask _ alike)

theorem State.Twin.abandon {s : State B P ρ} {s' : State B P ρ'}
    (twin : Twin made f f' L.around site₀ site₀' base base' s s') (alike : L.alike sc sc') :
    ∃ sc₁ sc₁', s.abandon sc = base.abandon f site₀ sc₁ ∧
      s'.abandon sc' = base'.abandon f' site₀' sc₁' ∧ L.alike sc₁ sc₁' := by
  cases twin with
  | mk calls control h => exact h.abandon alike

end Twins

/-! ## One program in two fibers -/

section Likened

variable {D : Discipline B} {f f' : Fiber} {sc sc' : Scene B}

/-- Giving up programs keeps scenes alike. -/
theorem Likeness.abandon (L : Likeness D f f') {a : Algebra} {α : Type} (site : Site B a)
    (stack : Stack B P a α ρ) (alike : L.alike sc sc') :
    L.alike (stack.abandon f site sc) (stack.abandon f' site sc') := by
  induction stack generalizing sc sc' with
  | nil => exact L.setMask _ alike
  | cons frame rest ih => exact ih site alike
  | embedded outside rest ih => exact ih outside (L.setMask _ alike)

/-- Every stack is its own twin, on the empty stack at its bottom. -/
theorem Stack.exists_bottom {a : Algebra} {α : Type} {around : List Algebra → List Algebra → Prop}
    (refl : ∀ l, around l l) (site : Site B a) (stack : Stack B P a α ρ) :
    ∃ (b : Algebra) (site₀ : Site B b),
      Twin around site₀ site₀ .nil .nil site site stack stack := by
  induction stack with
  | nil => exact ⟨_, site, .here⟩
  | cons frame rest ih =>
    obtain ⟨b, site₀, twin⟩ := ih site
    exact ⟨b, site₀, .cons frame twin⟩
  | embedded outside rest ih =>
    obtain ⟨b, site₀, twin⟩ := ih outside
    exact ⟨b, site₀, .embedded ⟨rfl, refl _⟩ rfl twin⟩

/-- Twins on one base, with the same programs around, are one. -/
theorem Stack.Twin.eq {a b : Algebra} {α β : Type} {around : List Algebra → List Algebra → Prop}
    {site₀ : Site B b} {base : Stack B P b β ρ} {site site' : Site B a}
    {stack stack' : Stack B P a α ρ} (names : ∀ {l l'}, around l l' → l = l')
    (h : Twin around site₀ site₀ base base site site' stack stack') :
    site = site' ∧ stack = stack' := by
  induction h with
  | here => exact ⟨rfl, rfl⟩
  | cons frame _ ih =>
    obtain ⟨sites, rests⟩ := ih
    exact ⟨sites, congrArg (Stack.cons frame) rests⟩
  | @embedded a c α outside outside' inside inside' rest rest' fits entry_eq _ ih =>
    obtain ⟨rfl, rfl⟩ := ih
    refine ⟨?_, rfl⟩
    cases inside
    cases inside'
    cases fits.handle_eq
    cases names fits.around
    cases entry_eq
    rfl

/-- The same program in progress, in another fiber. -/
def State.into (s : State B P ρ) (f : Fiber) : State B P ρ :=
  { s with fiber := f }

theorem State.into_eq_self {s : State B P ρ} (own : s.fiber = f) : s.into f = s := by
  rw [← own]
  rfl

theorem State.Twin.eq {b : Algebra} {β : Type} {around : List Algebra → List Algebra → Prop}
    {site₀ : Site B b} {base : Stack B P b β ρ} {s s' : State B P ρ}
    (names : ∀ {l l'}, around l l' → l = l')
    (h : Twin 0 f f' around site₀ site₀ base base s s') : s.fiber = f ∧ s' = s.into f' := by
  cases h with
  | mk calls control h =>
    obtain ⟨rfl, rfl⟩ := h.eq names
    exact ⟨rfl, rfl⟩

/-- Two steps lead to the same program in progress, or to the same end, in scenes that are alike. -/
inductive Next.Likened (L : Likeness D f f') : Next B P ρ → Next B P ρ → Prop where
  | more (s : State B P ρ) (own : s.fiber = f) {sc sc' : Scene B} (alike : L.alike sc sc') :
      Likened L (.more s sc) (.more (s.into f') sc')
  | waiting (s : State B P ρ) (own : s.fiber = f) {sc sc' : Scene B} (alike : L.alike sc sc') :
      Likened L (.waiting s sc) (.waiting (s.into f') sc')
  | ended (r : Except Interrupted ρ) {sc sc' : Scene B} (alike : L.alike sc sc') :
      Likened L (.ended r sc) (.ended r sc')
  | panicked (panic : Panic) {sc sc' : Scene B} (alike : L.alike sc sc') :
      Likened L (.panicked panic sc) (.panicked panic sc')

theorem Next.Likened.alike {L : Likeness D f f'} {n n' : Next B P ρ} (h : Likened L n n') :
    L.alike n.scene n'.scene := by
  cases h with
  | more _ _ alike => exact alike
  | waiting _ _ alike => exact alike
  | ended _ alike => exact alike
  | panicked _ alike => exact alike

namespace State

variable {s : State B P ρ}

/-- Looks find the same where the cancellation is requested in both scenes or in none, at the same
depth. -/
theorem looks_into (own : s.fiber = f)
    (requested : sc.fibers.isRequested f = sc'.fibers.isRequested f')
    (depth : sc.fibers.mask f = sc'.fibers.mask f') : s.looks sc = (s.into f').looks sc' := by
  subst own
  obtain ⟨b, bottom, itself⟩ := s.stack.exists_bottom (fun _ => rfl) s.site
  by_cases back : s.Back bottom .nil
  · obtain ⟨f, calls, r, rfl⟩ := back
    rfl
  · have twin : Twin 0 s.fiber f' Eq bottom bottom .nil .nil s (s.into f') :=
      .mk s.calls s.control itself
    exact twin.looks_eq back requested depth

/-- Where the looks find the same, the same is carried out. -/
theorem executes_into (looks : s.looks sc = (s.into f').looks sc') :
    (s.into f').executes sc' = s.executes sc := by
  obtain ⟨b, bottom, itself⟩ := s.stack.exists_bottom (fun _ => rfl) s.site
  have twin : Twin 0 s.fiber f' Eq bottom bottom .nil .nil s (s.into f') :=
    .mk s.calls s.control itself
  exact twin.executes_eq ⟨rfl, rfl⟩ looks

/-- A program takes the same step in both fibers, in scenes that are alike, if the looks that the
step takes find the same in both. -/
theorem step_likened {bodies : Bodies B P} (rt : Runtime) (L : Likeness D f f')
    (names : ∀ {l l'}, L.around l l' ↔ l = l') (own : s.fiber = f) (kept : D.Kept bodies)
    (obeys : s.control.Obeys D) (top : ∀ r, s.control = .give r → s.stack.TopObeys D)
    (alike : L.alike sc sc') (looks : s.looks sc = (s.into f').looks sc') :
    Next.Likened L (s.step bodies rt sc) ((s.into f').step bodies rt sc') := by
  subst own
  have refl (l : List Algebra) : L.around l l := names.mpr rfl
  obtain ⟨b, bottom, itself⟩ := s.stack.exists_bottom refl s.site
  by_cases back : s.Back bottom .nil
  · obtain ⟨g, calls, r, rfl⟩ := back
    exact .ended r (L.setMask _ alike)
  · have twin : Twin 0 s.fiber f' L.around bottom bottom .nil .nil s (s.into f') :=
      .mk s.calls s.control itself
    have next : Next.Twin L 0 bottom bottom .nil .nil s.abandon (s.into f').abandon
        (s.step bodies rt sc) ((s.into f').step bodies rt sc') :=
      twin.step (fun _ => rfl) kept ⟨rfl, refl _⟩ alike back obeys top looks
    revert next
    generalize s.step bodies rt sc = n
    generalize (s.into f').step bodies rt sc' = n'
    rintro (⟨twin, alike⟩ | ⟨twin, alike⟩ | ⟨panic, alike⟩)
    · obtain ⟨own, rfl⟩ := twin.eq names.mp
      exact .more _ own alike
    · obtain ⟨own, rfl⟩ := twin.eq names.mp
      exact .waiting _ own alike
    · exact .panicked panic (L.abandon s.site s.stack alike)

end State

end Likened

end Cancelable
