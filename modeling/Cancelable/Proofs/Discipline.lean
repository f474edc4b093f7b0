import Cancelable.Proofs.Progress

/-!
# Disciplines

A discipline asks something of the host code and of the tokens in a program.  Host code may for
instance be forbidden to look at a fiber, and tokens may have to be of a certain depth.  A program
keeps a discipline if all of its parts do, those that closures make of values included, and for a
region it is enough to consider the tokens that the discipline admits.

Main statement: what is put on top of a stack by a program that keeps a discipline keeps it too,
and never brings the mask below a floor, as long as no token does (`State.Sheltered.step`).
-/

namespace Cancelable

variable {B : Backend} {P : Procedures} {ρ : Type}

/-- What is asked of the host code and of the tokens in a program. -/
structure Discipline (B : Backend) where
  code : {α : Type} → Host B.World α → Prop
  token : Token → Prop

/-! ## Keeping a discipline -/

/-- A program keeps a discipline. -/
def Program.Obeys (D : Discipline B) : {a : Algebra} → {α : Type} → Program B P a α → Prop
  | _, _, .build code k => D.code code ∧ ∀ x, (k x).Obeys D
  | _, _, .map p g => p.Obeys D ∧ ∀ x, D.code (g x)
  | _, _, .bind p k => p.Obeys D ∧ ∀ x, (k x).Obeys D
  | _, _, .raw code => ∀ handle, D.code (code handle)
  | _, _, .delay code => D.code code
  | _, _, .suspend _ code => D.code code
  | _, _, .embed _ p => p.Obeys D
  | _, _, .handleError p handler => p.Obeys D ∧ ∀ failure, (handler failure).Obeys D
  | _, _, .forceR p q => p.Obeys D ∧ q.Obeys D
  | _, _, .uncancelable body => ∀ token, D.token token → (body token).Obeys D
  | _, _, .poll token p => D.token token ∧ p.Obeys D
  | _, _, .onCancel p finalizer => p.Obeys D ∧ finalizer.Obeys D
  | _, _, .pure _ | _, _, .call _ | _, _, .op _ | _, _, .raise _ | _, _, .monotonic
  | _, _, .realtime | _, _, .canceled => True

/-- What a frame will run or make of a value keeps a discipline. -/
def Frame.Obeys (D : Discipline B) {a : Algebra} {α β : Type} : Frame B P a α β → Prop
  | .map g => ∀ x, D.code (g x)
  | .bind k => ∀ x, (k x).Obeys D
  | .recover handler => ∀ failure, (handler failure).Obeys D
  | .forceR next => next.Obeys D
  | .onCancel finalizer => finalizer.Obeys D
  | .finalizing _ | .region _ | .unmasked _ => True

/-- What is done next keeps a discipline. -/
def Control.Obeys (D : Discipline B) {a : Algebra} {α : Type} : Control B P a α → Prop
  | .run p => p.Obeys D
  | .give _ => True
  | .block _ code => D.code code

/-- The operations and clocks of the backend keep a discipline, and so do all procedures. -/
structure Discipline.Kept (D : Discipline B) (bodies : Bodies B P) : Prop where
  invoke : ∀ {a : Algebra} (handle : B.Handle a) (o : Op a), D.code (B.invoke handle o)
  monotonic : D.code B.monotonic
  realtime : D.code B.realtime
  bodies : ∀ {a : Algebra} {α : Type} (procedure : P a α), (bodies procedure).Obeys D

/-- A stack has grown from another one, and all that was put on top keeps a discipline and
remembers depths at a floor or above it only. -/
inductive Stack.Above (D : Discipline B) (floor : Nat) {b : Algebra} {β : Type} (site₀ : Site B b)
    (base : Stack B P b β ρ) : {a : Algebra} → {α : Type} → Site B a → Stack B P a α ρ → Prop where
  | here : Above D floor site₀ base site₀ base
  | cons {a : Algebra} {α γ : Type} {site : Site B a} {frame : Frame B P a α γ}
      {rest : Stack B P a γ ρ} (obeys : frame.Obeys D)
      (high : ∀ level, frame.level? = some level → floor ≤ level)
      (h : Above D floor site₀ base site rest) : Above D floor site₀ base site (.cons frame rest)
  | embedded {a c : Algebra} {α : Type} {outside : Site B a} {inside : Site B c}
      {rest : Stack B P a α ρ} (high : floor ≤ inside.entry)
      (h : Above D floor site₀ base outside rest) :
      Above D floor site₀ base inside (.embedded outside rest)

namespace Stack.Above

variable {D : Discipline B} {floor : Nat} {a b c : Algebra} {α β γ : Type} {site₀ : Site B b}
  {base : Stack B P b β ρ} {site : Site B a}

theorem grown {stack : Stack B P a α ρ} (h : Above D floor site₀ base site stack) :
    Over site₀ base site stack := by
  induction h with
  | here => exact .here
  | cons _ _ _ ih => exact .cons ih
  | embedded _ _ ih => exact .embedded ih

/-- A frame whose rest has grown from the base was put on top. -/
theorem of_cons {frame : Frame B P a α γ} {rest : Stack B P a γ ρ}
    (h : Above D floor site₀ base site (.cons frame rest)) (grown : Over site₀ base site rest) :
    frame.Obeys D ∧ (∀ level, frame.level? = some level → floor ≤ level) ∧
      Above D floor site₀ base site rest := by
  cases h with
  | here => exact absurd grown.height_le (Nat.not_succ_le_self _)
  | cons obeys high h => exact ⟨obeys, high, h⟩

/-- An embedded program whose rest has grown from the base was put on top. -/
theorem of_embedded {outside : Site B c} {rest : Stack B P c α ρ}
    (h : Above D floor site₀ base site (.embedded outside rest))
    (grown : Over site₀ base outside rest) :
    floor ≤ site.entry ∧ Above D floor site₀ base outside rest := by
  cases h with
  | here => exact absurd grown.height_le (Nat.not_succ_le_self _)
  | embedded high h => exact ⟨high, h⟩

end Stack.Above

/-! ## Under a discipline -/

namespace State

/-- A program in progress on top of a stack, at the mask depth `m`: what it does next and what it
has put on the stack keeps a discipline, and the depth and all that is remembered of it on the stack
is at a floor or above it. -/
structure Sheltered (D : Discipline B) (floor : Nat) {b : Algebra} {β : Type} (site₀ : Site B b)
    (base : Stack B P b β ρ) (s : State B P ρ) (m : Nat) : Prop where
  floor_le : floor ≤ m
  obeys : s.control.Obeys D
  above : Stack.Above D floor site₀ base s.site s.stack

variable {D : Discipline B} {floor : Nat} {a b : Algebra} {α β γ : Type} {site₀ : Site B b}
  {base : Stack B P b β ρ} {bodies : Bodies B P} {rt : Runtime} {f : Fiber} {calls : Nat}
  {site : Site B a} {sc : Scene B}

theorem run_sheltered {p : Program B P a α} {stack : Stack B P a α ρ} (kept : D.Kept bodies)
    (floor_le : floor ≤ sc.fibers.mask f) (obeys : p.Obeys D)
    (above : Stack.Above D floor site₀ base site stack)
    (hands : D.token ⟨sc.fibers.mask f + 1, Nat.succ_pos _⟩)
    (holds : ∀ token q, p = .poll token q → sc.fibers.mask f = token.depth → floor ≤ token.outer) :
    (run bodies rt f calls site p stack sc).GoesOn fun s' sc' =>
      Sheltered D floor site₀ base s' (sc'.fibers.mask f) := by
  -- a refused operation, and any other that ends at once, leaves the depth and the stack alone
  have ends (r : Except Interrupted α) {sc' : Scene B}
      (depth : sc'.fibers.mask f = sc.fibers.mask f) :
      Sheltered D floor site₀ base ⟨f, calls, site, .give r, stack⟩ (sc'.fibers.mask f) :=
    ⟨depth ▸ floor_le, trivial, above⟩
  have waits {calls turns : Nat} {code : Host B.World (Except Failure α)} {sc' : Scene B}
      (code_obeys : D.code code) (depth : sc'.fibers.mask f = sc.fibers.mask f) :
      Sheltered D floor site₀ base ⟨f, calls, site, .block turns code, stack⟩
        (sc'.fibers.mask f) :=
    ⟨depth ▸ floor_le, code_obeys, above⟩
  have goes {p' : Program B P a α} {sc' : Scene B} (p_obeys : p'.Obeys D)
      (depth : sc'.fibers.mask f = sc.fibers.mask f) :
      Sheltered D floor site₀ base ⟨f, calls, site, .run p', stack⟩ (sc'.fibers.mask f) :=
    ⟨depth ▸ floor_le, p_obeys, above⟩
  have pushes {δ : Type} {p' : Program B P a δ} {frame : Frame B P a δ α}
      (p_obeys : p'.Obeys D) (frame_obeys : frame.Obeys D) (plain : frame.level? = none) :
      Sheltered D floor site₀ base ⟨f, calls, site, .run p', .cons frame stack⟩
        (sc.fibers.mask f) := by
    refine ⟨floor_le, p_obeys, .cons frame_obeys ?_ above⟩
    intro level holds
    rw [plain] at holds
    cases holds
  -- one case for each construct: it ends, waits, goes on or puts on a frame as one of the above
  cases p with
  | pure x => exact ends (.ok x) rfl
  | build code k => exact goesOn_hosting fun x sc' e => goes (obeys.2 x) (Scene.mask_of_host e f)
  | call procedure => exact goes (kept.bodies procedure) rfl
  | map p g => exact pushes obeys.1 obeys.2 rfl
  | bind p k => exact pushes obeys.1 obeys.2 rfl
  | op o => exact goesOn_observing (fun _ => ends _ rfl) fun _ => waits (kept.invoke _ o) rfl
  | raw code => exact goesOn_observing (fun _ => ends _ rfl) fun _ => waits (obeys _) rfl
  | delay code =>
    refine goesOn_observing (fun _ => ends _ rfl) fun _ => ?_
    exact goesOn_hosting fun x sc' e => ends _ (Scene.mask_of_host e f)
  | suspend hint code =>
    refine goesOn_observing (fun _ => ends _ rfl) fun _ => ?_
    split
    · exact waits obeys rfl
    · exact goesOn_calling fun result sc' e => ends _ (Scene.mask_of_host e f)
  | raise failure => exact goesOn_observing (fun _ => ends _ rfl) fun _ => ends _ rfl
  | monotonic =>
    refine goesOn_observing (fun _ => ends _ rfl) fun _ => ?_
    exact goesOn_hosting fun x sc' e => ends _ (Scene.mask_of_host e f)
  | realtime =>
    refine goesOn_observing (fun _ => ends _ rfl) fun _ => ?_
    exact goesOn_hosting fun x sc' e => ends _ (Scene.mask_of_host e f)
  | canceled =>
    refine goesOn_observing (fun _ => ends _ rfl) fun _ => ?_
    exact goesOn_observing (fun _ => ends _ rfl) fun _ => ends _ rfl
  | embed handle p =>
    exact goesOn_observing (fun _ => ends _ rfl) fun _ =>
      ⟨floor_le, obeys, .embedded floor_le above⟩
  | handleError p handler =>
    exact goesOn_observing (fun _ => ends _ rfl) fun _ => pushes obeys.1 obeys.2 rfl
  | forceR p q =>
    exact goesOn_observing (fun _ => ends _ rfl) fun _ => pushes obeys.1 obeys.2 rfl
  | onCancel p finalizer =>
    exact goesOn_observing (fun _ => ends _ rfl) fun _ => pushes obeys.1 obeys.2 rfl
  | uncancelable body =>
    -- the body gets a token that the discipline admits
    refine goesOn_observing (fun _ => ends _ rfl) fun _ => ?_
    refine ⟨?_, obeys _ hands, .cons trivial ?_ above⟩
    · simp only [Scene.fibers_setMask, Fibers.mask_setMask_self]
      exact Nat.le_succ_of_le floor_le
    · rintro level ⟨⟩
      exact floor_le
  | poll token p =>
    refine goesOn_observing (fun _ => ends _ rfl) fun _ => ?_
    simp only
    split
    · next own =>
      -- the frame remembers the depth before the poll, which is not below the floor
      have high : Stack.Above D floor site₀ base site
          (.cons (.unmasked (sc.fibers.mask f)) stack) := by
        refine .cons trivial ?_ above
        rintro level ⟨⟩
        exact floor_le
      have outer : floor ≤ (sc.setMask f token.outer).fibers.mask f := by
        simp only [Scene.fibers_setMask, Fibers.mask_setMask_self]
        exact holds token p rfl own
      exact goesOn_observing (fun _ => ⟨outer, trivial, high⟩) fun _ => ⟨outer, obeys.2, high⟩
    · exact goes obeys.2 rfl

theorem resume_sheltered {frame : Frame B P a α γ} {rest : Stack B P a γ ρ}
    (r : Except Interrupted α) (floor_le : floor ≤ sc.fibers.mask f)
    (above : Stack.Above D floor site₀ base site (.cons frame rest)) :
    (resume f calls site frame r rest sc).GoesOn fun s' sc' =>
      s'.Over site₀ base → Sheltered D floor site₀ base s' (sc'.fibers.mask f) := by
  -- a frame passes a result on, goes on with a program of its own, or sets a depth it remembers;
  -- in each case it must not belong to the base, or the program on top has been left
  have passes (r : Except Interrupted γ) {sc' : Scene B}
      (depth : sc'.fibers.mask f = sc.fibers.mask f) :
      State.Over site₀ base ⟨f, calls, site, .give r, rest⟩ →
        Sheltered D floor site₀ base ⟨f, calls, site, .give r, rest⟩ (sc'.fibers.mask f) :=
    fun grown => ⟨depth ▸ floor_le, trivial, (above.of_cons grown).2.2⟩
  have goes {p : Program B P a γ} {sc' : Scene B} (obeys : frame.Obeys D → p.Obeys D)
      (depth : sc'.fibers.mask f = sc.fibers.mask f) :
      State.Over site₀ base ⟨f, calls, site, .run p, rest⟩ →
        Sheltered D floor site₀ base ⟨f, calls, site, .run p, rest⟩ (sc'.fibers.mask f) :=
    fun grown => ⟨depth ▸ floor_le, obeys (above.of_cons grown).1, (above.of_cons grown).2.2⟩
  have restores {level : Nat} (r : Except Interrupted γ) {sc' : Scene B}
      (remembers : frame.level? = some level) (depth : sc'.fibers.mask f = level) :
      State.Over site₀ base ⟨f, calls, site, .give r, rest⟩ →
        Sheltered D floor site₀ base ⟨f, calls, site, .give r, rest⟩ (sc'.fibers.mask f) :=
    fun grown => ⟨depth ▸ (above.of_cons grown).2.1 level remembers, trivial,
      (above.of_cons grown).2.2⟩
  cases frame with
  | map g =>
    cases r with
    | ok x => exact goesOn_hosting fun y sc' e => passes _ (Scene.mask_of_host e f)
    | error i => exact passes _ rfl
  | bind k =>
    cases r with
    | ok x => exact goes (fun obeys => obeys x) rfl
    | error i => exact passes _ rfl
  | recover handler =>
    rcases r with (failure | _) | x
    · exact goes (fun obeys => obeys failure) rfl
    · exact passes _ rfl
    · exact passes _ rfl
  | forceR next =>
    rcases r with (failure | _) | x
    · exact goes id rfl
    · exact passes _ rfl
    · exact goes id rfl
  | onCancel finalizer =>
    rcases r with (failure | _) | x
    · exact passes _ rfl
    · intro grown
      change Stack.Over site₀ base site (.cons (.finalizing (sc.fibers.mask f)) rest) at grown
      -- the frame that was put in the place of the other one is not part of the base
      cases grown with
      | here =>
        cases above with
        | cons _ _ h => exact absurd h.grown.height_le (Nat.not_succ_le_self _)
      | cons grown =>
        rcases above.of_cons grown with ⟨obeys, _, high⟩
        refine ⟨?_, obeys, .cons trivial ?_ high⟩
        · simp only [Scene.fibers_setMask, Fibers.mask_setMask_self]
          exact Nat.le_succ_of_le floor_le
        · rintro level ⟨⟩
          exact floor_le
    · exact passes _ rfl
  | finalizing level =>
    rcases r with (failure | _) | x <;> exact restores _ rfl (Fibers.mask_setMask_self ..)
  | region level =>
    refine goesOn_observing (fun _ => ?_) fun _ => ?_
    · exact restores _ rfl (Fibers.mask_setMask_self ..)
    · exact restores _ rfl (Fibers.mask_setMask_self ..)
  | unmasked level => exact restores _ rfl (Fibers.mask_setMask_self ..)

/-- A step stays under the discipline and above the floor, unless it leaves the program on top, if
the discipline admits the token that a region entered now would hand out, and a poll that is
applied now does not bring the mask below the floor. -/
theorem Sheltered.step {s : State B P ρ} (rt : Runtime) (kept : D.Kept bodies)
    (h : s.Sheltered D floor site₀ base (sc.fibers.mask s.fiber))
    (hands : D.token ⟨sc.fibers.mask s.fiber + 1, Nat.succ_pos _⟩)
    (holds : ∀ token q, s.control = .run (.poll token q) →
      sc.fibers.mask s.fiber = token.depth → floor ≤ token.outer) :
    ((s.step bodies rt sc).GoesOn fun s' sc' =>
      s'.Over site₀ base → s'.Sheltered D floor site₀ base (sc'.fibers.mask s.fiber)) ∨
    ∃ r sc', s.step bodies rt sc = .ended r sc' := by
  rcases s with ⟨f, calls, site, control, stack⟩
  rcases h with ⟨floor_le, obeys, above⟩
  cases control with
  | run p =>
    refine .inl (Next.GoesOn.mono (fun s' sc' sheltered _ => sheltered) ?_)
    exact run_sheltered kept floor_le obeys above hands fun token q e =>
      holds token q (congrArg Control.run e)
  | give r =>
    cases stack with
    | nil => exact .inr ⟨r, _, rfl⟩
    | cons frame rest => exact .inl (resume_sheltered r floor_le above)
    | embedded outside rest =>
      refine .inl fun grown => ?_
      rcases above.of_embedded grown with ⟨high, above⟩
      refine ⟨?_, trivial, above⟩
      simp only [Scene.fibers_setMask, Fibers.mask_setMask_self]
      exact high
  | block turns code =>
    cases turns with
    | zero =>
      exact .inl (goesOn_calling fun result sc' e _ =>
        ⟨Scene.mask_of_host e f ▸ floor_le, trivial, above⟩)
    | succ turns => exact .inl fun _ => ⟨floor_le, obeys, above⟩

/-- From one point of a run to the next the program on top stays under the discipline and above the
floor. -/
theorem Sheltered.advance {s s' : State B P ρ} {sc' : Scene B} {ops : List (Executed B P)}
    (kept : D.Kept bodies) (h : s.Sheltered D floor site₀ base (sc.fibers.mask s.fiber))
    (hands : D.token ⟨sc.fibers.mask s.fiber + 1, Nat.succ_pos _⟩)
    (holds : ∀ token q, s.control = .run (.poll token q) →
      sc.fibers.mask s.fiber = token.depth → floor ≤ token.outer)
    (last : Advances bodies rt s sc ops s' sc') (grown : s'.Over site₀ base) :
    s'.Sheltered D floor site₀ base (sc'.fibers.mask s.fiber) := by
  cases last with
  | step next =>
    rcases h.step rt kept hands holds with goes | ⟨r, sc'', ended⟩
    · rw [next] at goes
      exact goes grown
    · rw [next] at ended
      cases ended
  | wait next =>
    rcases h.step rt kept hands holds with goes | ⟨r, sc'', ended⟩
    · rw [next] at goes
      exact goes grown
    · rw [next] at ended
      cases ended
  | others spared =>
    rw [spared.mask_eq]
    exact h

end State

/-! ## From the start to the end -/

/-- Every frame of a stack keeps a discipline. -/
def Stack.Obeys (D : Discipline B) : {a : Algebra} → {α : Type} → Stack B P a α ρ → Prop
  | _, _, .nil => True
  | _, _, .cons frame rest => frame.Obeys D ∧ rest.Obeys D
  | _, _, .embedded _ rest => rest.Obeys D

/-- What is done next keeps a discipline, and so does all that remains to be done then. -/
structure State.Obeys (D : Discipline B) (s : State B P ρ) : Prop where
  control : s.control.Obeys D
  stack : s.stack.Obeys D

section Obeys

variable {D : Discipline B} {a b : Algebra} {α : Type}

/-- A stack that keeps a discipline was put under it on the empty stack. -/
theorem Stack.Obeys.above (site : Site B a) {stack : Stack B P a α ρ} (obeys : stack.Obeys D) :
    ∃ (b : Algebra) (site₀ : Site B b), Above D 0 site₀ .nil site stack := by
  induction stack with
  | nil => exact ⟨_, site, .here⟩
  | cons frame rest ih =>
    obtain ⟨b, site₀, above⟩ := ih site obeys.2
    exact ⟨b, site₀, .cons obeys.1 (fun level _ => level.zero_le) above⟩
  | embedded outside rest ih =>
    obtain ⟨b, site₀, above⟩ := ih outside obeys
    exact ⟨b, site₀, .embedded site.entry.zero_le above⟩

theorem Stack.Above.obeys {floor : Nat} {site₀ : Site B b} {site : Site B a}
    {stack : Stack B P a α ρ} (above : Above D floor site₀ .nil site stack) : stack.Obeys D := by
  induction above with
  | here => exact trivial
  | cons obeys _ _ ih => exact ⟨obeys, ih⟩
  | embedded _ _ ih => exact ih

theorem Stack.Over.of_cons {β : Type} {site₀ : Site B b} {site : Site B a} {frame : Frame B P a α β}
    {rest : Stack B P a β ρ} (grown : Over site₀ .nil site (.cons frame rest)) :
    Over site₀ .nil site rest := by
  cases grown with
  | cons grown => exact grown

theorem Stack.Over.of_embedded {c : Algebra} {site₀ : Site B b} {inside : Site B c}
    {outside : Site B a} {rest : Stack B P a α ρ}
    (grown : Over site₀ .nil inside (.embedded outside rest)) : Over site₀ .nil outside rest := by
  cases grown with
  | embedded grown => exact grown

/-- No move takes anything away from the empty stack. -/
theorem Moves.over_nil {s s' : State B P ρ} {m n : Nat} {site₀ : Site B b} (move : Moves s m s' n)
    (grown : s.Over site₀ .nil) : s'.Over site₀ .nil := by
  cases move with
  | stay => exact grown
  | push frame plain => exact .cons grown
  | pop frame plain => exact Stack.Over.of_cons grown
  | enter => exact .cons grown
  | lower => exact .cons grown
  | finalize => exact .cons (Stack.Over.of_cons grown)
  | restore frame holds => exact Stack.Over.of_cons grown
  | embed => exact .embedded grown
  | unembed => exact Stack.Over.of_embedded grown

/-- A program that keeps a discipline goes on under it, if all tokens are admitted. -/
theorem State.Obeys.goesTo {bodies : Bodies B P} {rt : Runtime} {s s' : State B P ρ}
    {sc sc' : Scene B} (kept : D.Kept bodies) (free : ∀ token, D.token token) (h : s.Obeys D)
    (next : (s.step bodies rt sc).GoesTo s' sc') : s'.Obeys D := by
  obtain ⟨b, site₀, above⟩ := h.stack.above s.site
  have sheltered : s.Sheltered D 0 site₀ .nil (sc.fibers.mask s.fiber) :=
    ⟨Nat.zero_le _, h.control, above⟩
  have grown : s'.Over site₀ .nil := (State.moves_of_goesTo next).over_nil above.grown
  have goesOn := sheltered.step rt kept (free _) fun token _ _ _ => token.outer.zero_le
  rcases goesOn with goesOn | ⟨r, sc'', ended⟩
  · have sheltered' := goesOn.at next grown
    exact ⟨sheltered'.obeys, sheltered'.above.obeys⟩
  · rcases next with next | next <;> cases ended.symm.trans next

end Obeys

end Cancelable
