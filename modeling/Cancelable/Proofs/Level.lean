import Cancelable.Proofs.Progress

/-!
# The level of a stack

The frames of a stack say by themselves what the mask depth is.  Walk the stack from the bottom,
with the depth at which the run was started: a region or a finalizer has to remember the depth
reached so far and raises it by one, a poll has to remember it and lowers it by one, and all other
frames leave it alone.  Where a program is embedded, the depth reached has to be the one it was
started at.

Main statement: at every point of a run the walk succeeds and ends at the present mask depth, so a
program that has run out of frames has brought the mask back by them alone
(`State.level_eq_mask`).
-/

namespace Cancelable

variable {B : Backend} {P : Procedures} {ρ : Type}

/-! ## The walk -/

/-- The depth above a frame, given the depth below it. -/
def Frame.shift {a : Algebra} {α β : Type} : Frame B P a α β → Nat → Option Nat
  | .region level, n => if n = level then some (level + 1) else none
  | .finalizing level, n => if n = level then some (level + 1) else none
  | .unmasked level, n => if n = level ∧ 1 ≤ level then some (level - 1) else none
  | _, n => some n

/-- The depth at the top of a stack whose innermost program is run at a site, given the depth `m₀`
at the bottom. -/
def Stack.level? (m₀ : Nat) : {a : Algebra} → {α : Type} → Site B a → Stack B P a α ρ → Option Nat
  | _, _, site, .nil => if site.entry = m₀ then some m₀ else none
  | _, _, site, .cons frame rest => (level? m₀ site rest).bind frame.shift
  | _, _, site, .embedded outside rest =>
    (level? m₀ outside rest).bind fun n => if site.entry = n then some n else none

/-- Whether the innermost program has no frames left. -/
def Stack.isBare {a : Algebra} {α : Type} : Stack B P a α ρ → Bool
  | .cons .. => false
  | _ => true

namespace Frame

variable {a : Algebra} {α β : Type} {frame : Frame B P a α β}

theorem shift_of_plain (plain : frame.level? = none) (n : Nat) : frame.shift n = some n := by
  cases frame with
  | finalizing level => cases plain
  | region level => cases plain
  | unmasked level => cases plain
  | _ => rfl

/-- A frame that remembers a depth stands on that depth. -/
theorem eq_of_shift {level n m : Nat} (holds : frame.level? = some level)
    (h : frame.shift n = some m) : n = level := by
  cases frame with
  | finalizing l =>
    cases holds
    simp only [shift] at h
    split at h
    · next e => exact e
    · cases h
  | region l =>
    cases holds
    simp only [shift] at h
    split at h
    · next e => exact e
    · cases h
  | unmasked l =>
    cases holds
    simp only [shift] at h
    split at h
    · next e => exact e.1
    · cases h
  | _ => cases holds

end Frame

namespace Stack

variable {a : Algebra} {α β : Type} {m₀ : Nat} {site : Site B a}

theorem level?_rest {frame : Frame B P a α β} {rest : Stack B P a β ρ} {m : Nat}
    (h : (Stack.cons frame rest).level? m₀ site = some m) :
    ∃ n, rest.level? m₀ site = some n ∧ frame.shift n = some m :=
  Option.bind_eq_some_iff.mp h

theorem entry_eq_of_bare {stack : Stack B P a α ρ} {m : Nat} (h : stack.level? m₀ site = some m)
    (bare : stack.isBare = true) : site.entry = m := by
  -- without frames the walk ends by comparing the depth with the one the program was started at
  cases stack with
  | nil =>
    simp only [level?] at h
    split at h
    · next e =>
      cases h
      exact e
    · cases h
  | cons frame rest => cases bare
  | embedded outside rest =>
    rcases Option.bind_eq_some_iff.mp h with ⟨n, _, e⟩
    split at e
    · next e' =>
      cases e
      exact e'
    · cases e

end Stack

/-! ## Moves keep the level -/

/-- The walk over the stack of a state ends at the depth `m`. -/
def State.Level (m₀ : Nat) (s : State B P ρ) (m : Nat) : Prop :=
  s.stack.level? m₀ s.site = some m

/-- Every move keeps the level of the stack and the mask depth together. -/
theorem Moves.level {m₀ m n : Nat} {s s' : State B P ρ} (move : Moves s m s' n)
    (h : s.Level m₀ m) : s'.Level m₀ n := by
  -- a frame that is put on shifts the depth as the move does, and one that is taken off tells the
  -- depth below it
  cases move with
  | stay => exact h
  | push frame plain =>
    show Option.bind _ frame.shift = _
    rw [h]
    exact Frame.shift_of_plain plain m
  | pop frame plain =>
    rcases Stack.level?_rest h with ⟨k, below, e⟩
    rw [Frame.shift_of_plain plain] at e
    cases e
    exact below
  | enter =>
    show Option.bind _ (Frame.region m).shift = _
    rw [h]
    simp [Frame.shift]
  | @lower a α f calls site token p c stack =>
    show Option.bind _ (Frame.unmasked token.depth).shift = _
    rw [h]
    have positive : 1 ≤ token.depth := token.depth_pos
    simp [Frame.shift, positive, Token.outer]
  | finalize =>
    rcases Stack.level?_rest h with ⟨k, below, e⟩
    cases e
    show Option.bind _ (Frame.finalizing m).shift = _
    rw [below]
    simp [Frame.shift]
  | restore frame holds =>
    rcases Stack.level?_rest h with ⟨k, below, e⟩
    cases Frame.eq_of_shift holds e
    exact below
  | embed =>
    show Option.bind _ _ = _
    rw [h]
    simp
  | @unembed a b α f calls m outside inside r rest =>
    rcases Option.bind_eq_some_iff.mp h with ⟨k, below, e⟩
    split at e
    · next e' =>
      show Stack.level? m₀ outside rest = _
      rw [e']
      exact below
    · cases e

/-! ## Every point of a run -/

namespace State

variable {bodies : Bodies B P} {rt : Runtime} {stay : State B P ρ → Prop}

theorem level_start {a : Algebra} (f : Fiber) (handle : B.Handle a) (p : Program B P a ρ)
    (fs : Fibers) : (start f handle p fs).Level (fs.mask f) (fs.mask f) :=
  if_pos rfl

theorem Progress.level {a : Algebra} {f : Fiber} {handle : B.Handle a} {p : Program B P a ρ}
    {s : State B P ρ} {sc₀ sc : Scene B} {ops : List (Executed B P)}
    (h : Progress bodies rt stay (start f handle p sc₀.fibers) sc₀ ops s sc) :
    s.Level (sc₀.fibers.mask f) (sc.fibers.mask s.fiber) :=
  h.invariant (level_start f handle p sc₀.fibers) fun move _ _ level => move.level level

/-- A program that has run out of frames ends without changing the scene, if the mask is at the
depth of its site. -/
theorem scene_give_of_bare {a : Algebra} {α : Type} {f : Fiber} {calls : Nat} {site : Site B a}
    {r : Except Interrupted α} {stack : Stack B P a α ρ} {sc : Scene B}
    (bare : stack.isBare = true) (depth : sc.fibers.mask f = site.entry) :
    (give f calls site r stack sc).scene = sc := by
  cases stack with
  | nil => exact Scene.setMask_eq_self depth
  | cons frame rest => cases bare
  | embedded outside rest => exact Scene.setMask_eq_self depth

/-- At every point of a run that has its fiber to itself the walk over the stack, begun at the
depth the run found, meets every requirement and ends at the present mask depth.  Hence a program,
embedded or not, that has a result and no frames left finds the mask at the depth it was started
at, and its end changes nothing; for the run as a whole that is the depth it found.  And the depth
outside the region of a token it applies is the depth of the token less one, in full. -/
theorem level_eq_mask {a : Algebra} {f : Fiber} {handle : B.Handle a} {p : Program B P a ρ}
    {s : State B P ρ} {sc₀ sc : Scene B} {ops : List (Executed B P)}
    (h : Progress bodies rt (fun _ => True) (start f handle p sc₀.fibers) sc₀ ops s sc) :
    s.stack.level? (sc₀.fibers.mask f) s.site = some (sc.fibers.mask f) ∧
      (∀ r, s.control = .give r → s.stack.isBare = true →
        sc.fibers.mask f = s.site.entry ∧ (s.step bodies rt sc).scene = sc) ∧
      (∀ r sc', s.step bodies rt sc = .ended r sc' →
        sc' = sc ∧ sc'.fibers.mask f = sc₀.fibers.mask f) ∧
      (∀ token q, s.control = .run (.poll token q) → token.outer + 1 = token.depth) := by
  obtain rfl : s.fiber = f := h.fiber_eq
  have level : s.stack.level? (sc₀.fibers.mask s.fiber) s.site = some (sc.fibers.mask s.fiber) :=
    h.level
  have depth_of_bare (bare : s.stack.isBare = true) : sc.fibers.mask s.fiber = s.site.entry :=
    (Stack.entry_eq_of_bare level bare).symm
  -- the guards of a program that ends restore the depth its frames have restored already
  refine ⟨level, ?_, ?_, fun token _ _ => token.outer_add_one⟩
  · intro r gives bare
    refine ⟨depth_of_bare bare, ?_⟩
    rw [step, gives]
    exact scene_give_of_bare bare (depth_of_bare bare)
  · intro r sc' ended
    rcases eq_of_ended ended with ⟨b, g, calls, site, rfl, rfl⟩
    have kept : sc.setMask g site.entry = sc := Scene.setMask_eq_self (depth_of_bare rfl)
    refine ⟨kept, ?_⟩
    rw [kept]
    -- at the bottom of the stack the walk has only compared the two depths
    simp only [Stack.level?] at level
    split at level
    · exact (Option.some.inj level).symm
    · cases level

/-- In a finalizer that runs because a poll found its fiber canceled, the walk has been up, down and
up again. -/
theorem level_in_finalizer :
    let f : Fiber := ⟨.numbered 0, .numbered 0⟩
    let sc : Scene .notes := .blank {}
    let body (token : Token) : Program .notes .none .connection Unit :=
      .poll token (.onCancel .canceled (.note 0))
    let point := (start f (a := .connection) () (.uncancelable body) sc.fibers).after Bodies.none
      .inline 5 sc
    point.1.stack.level? 0 point.1.site = some 1 := by
  intro f sc body point
  obtain ⟨ops, h⟩ := progress_after 5
    (start f (a := .connection) () (.uncancelable body) sc.fibers) sc
  have level := (level_eq_mask h).1
  have depth : point.2.fibers.mask f = 1 := by decide
  rw [← depth]
  exact level

end State
end Cancelable
