import Cancelable.Machine.Step

/-!
# What a step does

A step of a program in progress is put together from a few parts: it looks for a cancellation, runs
host code, goes on with a program, hands on a result.  This module says of each part what holds of
whatever comes next, and from that what a whole step does to the stack and to the mask depth of the
program's fiber.

The mask depth changes in five places only, and each leaves its trace on the stack: a region is
entered, a poll lowers the mask, a finalizer is started, a frame that remembers a depth is taken
off, an embedded program ends.

Main statement: every step before the last is one of these moves (`State.step_moves`).
-/

namespace Cancelable

variable {B : Backend} {P : Procedures} {ρ : Type}

/-! ## Sorts of nodes -/

namespace Program

variable {a : Algebra} {α : Type}

/-- Whether a program is an operation that is carried out at once, without running a program. -/
def isLeaf : Program B P a α → Bool
  | .op _ | .raw _ | .delay _ | .suspend .. | .raise _ | .monotonic | .realtime | .canceled => true
  | _ => false

/-- Whether a program is an operation, before which a cancellation is looked for. -/
def isOperation : Program B P a α → Bool
  | .pure _ | .build .. | .call _ | .map .. | .bind .. => false
  | _ => true

end Program

/-! ## Levels that frames remember -/

/-- The mask depth a frame sets when it is taken off. -/
def Frame.level? {a : Algebra} {α β : Type} : Frame B P a α β → Option Nat
  | .finalizing level | .region level | .unmasked level => some level
  | _ => none

/-! ## Whatever comes next -/

namespace Next

def scene : Next B P ρ → Scene B
  | .more _ sc | .waiting _ sc | .ended _ sc | .panicked _ sc => sc

/-- Whether the program goes on after a step, now or in a later turn, at a point that meets a
condition.  It may break off instead, but not end. -/
def GoesOn (Q : State B P ρ → Scene B → Prop) : Next B P ρ → Prop
  | .more s sc => Q s sc
  | .waiting s sc => Q s sc
  | .ended _ _ => False
  | .panicked _ _ => True

theorem GoesOn.mono {Q Q' : State B P ρ → Scene B → Prop} {next : Next B P ρ}
    (weaken : ∀ s sc, Q s sc → Q' s sc) (h : next.GoesOn Q) : next.GoesOn Q' := by
  cases next with
  | more s sc => exact weaken s sc h
  | waiting s sc => exact weaken s sc h
  | ended r sc => exact h
  | panicked p sc => exact h

/-- The program goes on at a point, now or in a later turn. -/
def GoesTo (s : State B P ρ) (sc : Scene B) (next : Next B P ρ) : Prop :=
  next = .more s sc ∨ next = .waiting s sc

theorem GoesOn.at {Q : State B P ρ → Scene B → Prop} {next : Next B P ρ} {s : State B P ρ}
    {sc : Scene B} (h : next.GoesOn Q) (goes : next.GoesTo s sc) : Q s sc := by
  rcases goes with rfl | rfl
  · exact h
  · exact h

end Next

namespace State

variable {a : Algebra} {α β : Type} {f : Fiber} {calls : Nat} {site : Site B a}
  {stack : Stack B P a α ρ} {sc : Scene B} {Q : State B P ρ → Scene B → Prop}

/-- Host code yields a value, with which the step goes on, or breaks off, and then the program is
given up. -/
theorem hosting_cases {M : Next B P ρ → Prop} {code : Host B.World β}
    {next : β → Scene B → Next B P ρ}
    (value : ∀ x sc', sc.host code = (.ok x, sc') → M (next x sc'))
    (broken : ∀ panic sc', sc.host code = (.error panic, sc') →
      M (.panicked panic (stack.abandon f site sc'))) :
    M (hosting f site code stack sc next) := by
  unfold hosting
  cases host : sc.host code with
  | mk exit sc' =>
    cases exit with
    | ok x => exact value x sc' host
    | error panic => exact broken panic sc' host

/-- An observation ends the program above the stack, or finds nothing. -/
theorem observing_cases {M : Next B P ρ → Prop} {next : Scene B → Next B P ρ}
    (refused : sc.fibers.isCanceled f = true →
      M (yield f calls site (.error .canceled) stack (sc.emit .cancellationObserved site.spans)))
    (clear : sc.fibers.isCanceled f = false → M (next sc)) :
    M (observing f calls site stack sc next) := by
  unfold observing Scene.observe
  cases canceled : sc.fibers.isCanceled f with
  | true => exact refused canceled
  | false => exact clear canceled

theorem goesOn_hosting {code : Host B.World β} {next : β → Scene B → Next B P ρ}
    (h : ∀ x sc', sc.host code = (.ok x, sc') → (next x sc').GoesOn Q) :
    (hosting f site code stack sc next).GoesOn Q :=
  hosting_cases h fun _ _ _ => trivial

theorem goesOn_observing {next : Scene B → Next B P ρ}
    (refused : sc.fibers.isCanceled f = true →
      Q ⟨f, calls, site, .give (.error .canceled), stack⟩
        (sc.emit .cancellationObserved site.spans))
    (clear : sc.fibers.isCanceled f = false → (next sc).GoesOn Q) :
    (observing f calls site stack sc next).GoesOn Q :=
  observing_cases refused clear

theorem goesOn_calling {code : Host B.World (Except Failure α)}
    (h : ∀ result sc', sc.host code = (.ok result, sc') →
      Q ⟨f, calls, site, .give (result.mapError .errored), stack⟩ sc') :
    (calling f calls site code stack sc).GoesOn Q :=
  goesOn_hosting h

/-! ## Looking for a cancellation -/

theorem observing_of_clear (clear : sc.fibers.isCanceled f = false)
    (next : Scene B → Next B P ρ) : observing f calls site stack sc next = next sc := by
  simp [observing, Scene.observe, clear]

/-- An observation that finds a cancellation ends the program above the stack. -/
theorem observing_of_canceled (canceled : sc.fibers.isCanceled f = true)
    (next : Scene B → Next B P ρ) :
    observing f calls site stack sc next =
      yield f calls site (.error .canceled) stack (sc.emit .cancellationObserved site.spans) := by
  simp [observing, Scene.observe, canceled]

theorem run_of_canceled {bodies : Bodies B P} {rt : Runtime} {p : Program B P a α}
    (operation : p.isOperation = true) (canceled : sc.fibers.isCanceled f = true) :
    run bodies rt f calls site p stack sc =
      yield f calls site (.error .canceled) stack (sc.emit .cancellationObserved site.spans) := by
  cases p with
  | pure x => cases operation
  | build code k => cases operation
  | call procedure => cases operation
  | map p g => cases operation
  | bind p k => cases operation
  | _ => exact observing_of_canceled canceled _

/-- A poll that applies its token lowers the mask, and then looks for a cancellation. -/
theorem run_poll_of_own {bodies : Bodies B P} {rt : Runtime} {token : Token} {p : Program B P a α}
    (clear : sc.fibers.isCanceled f = false) (own : sc.fibers.mask f = token.depth) :
    run bodies rt f calls site (.poll token p) stack sc =
      observing f calls site (.cons (.unmasked (sc.fibers.mask f)) stack)
        (sc.setMask f (sc.fibers.mask f - 1))
        (goOn f calls site p (.cons (.unmasked (sc.fibers.mask f)) stack)) := by
  show observing f calls site stack sc _ = _
  rw [observing_of_clear clear]
  simp only [own, if_true, Token.outer]

theorem run_poll_of_stale {bodies : Bodies B P} {rt : Runtime} {token : Token} {p : Program B P a α}
    (clear : sc.fibers.isCanceled f = false) (stale : sc.fibers.mask f ≠ token.depth) :
    run bodies rt f calls site (.poll token p) stack sc = goOn f calls site p stack sc := by
  show observing f calls site stack sc _ = _
  rw [observing_of_clear clear]
  simp only [stale, if_false]

theorem step_of_run {bodies : Bodies B P} {rt : Runtime} {s : State B P ρ} {p : Program B P s.a s.α}
    (h : s.control = .run p) :
    s.step bodies rt sc = run bodies rt s.fiber s.calls s.site p s.stack sc := by
  rw [step, h]

/-- A poll that applies its token brings the mask to the depth outside the region of the token,
whether or not the second look finds a cancellation. -/
theorem step_of_own_poll (bodies : Bodies B P) (rt : Runtime) {s : State B P ρ} {token : Token}
    {p : Program B P s.a s.α} (poll : s.control = .run (.poll token p))
    (own : sc.fibers.mask s.fiber = token.depth) :
    ∃ control sc',
      s.step bodies rt sc =
        .more ⟨s.fiber, s.calls, s.site, control, .cons (.unmasked token.depth) s.stack⟩ sc' ∧
      sc'.fibers.mask s.fiber = token.outer := by
  have clear : sc.fibers.isCanceled s.fiber = false := by
    apply Fibers.isCanceled_of_mask_pos
    rw [own]
    exact token.depth_pos
  -- the depth of a token is positive, so the first look is put off
  rw [step_of_run poll, run_poll_of_own clear own, own]
  cases found : (sc.setMask s.fiber (token.depth - 1)).fibers.isCanceled s.fiber with
  | true =>
    rw [observing_of_canceled found]
    exact ⟨_, _, rfl, Fibers.mask_setMask_self ..⟩
  | false =>
    rw [observing_of_clear found]
    exact ⟨_, _, rfl, Fibers.mask_setMask_self ..⟩

/-- A poll whose token has another depth is its program, unless it is refused. -/
theorem step_of_stale_poll {bodies : Bodies B P} {rt : Runtime} {s : State B P ρ} {token : Token}
    {p : Program B P s.a s.α} (poll : s.control = .run (.poll token p))
    (clear : sc.fibers.isCanceled s.fiber = false) (stale : sc.fibers.mask s.fiber ≠ token.depth) :
    s.step bodies rt sc = .more { s with control := .run p } sc := by
  rw [step_of_run poll, run_poll_of_stale clear stale]
  rfl

end State

/-! ## Moves -/

/-- What a step can do to the stack and to the mask depth of the program's fiber: `Moves s m s' n`
says that it leads from `s` with the depth `m` to `s'` with the depth `n`. -/
inductive Moves : State B P ρ → Nat → State B P ρ → Nat → Prop where
  -- the stack and the depth stay as they are
  | stay {a : Algebra} {α : Type} {f : Fiber} {calls calls' m : Nat} {site : Site B a}
      {c c' : Control B P a α} {stack : Stack B P a α ρ} :
      Moves ⟨f, calls, site, c, stack⟩ m ⟨f, calls', site, c', stack⟩ m
  -- frames that remember no depth
  | push {a : Algebra} {α β : Type} {f : Fiber} {calls m : Nat} {site : Site B a}
      {p : Program B P a β} {q : Program B P a α} {stack : Stack B P a β ρ}
      (frame : Frame B P a α β) (plain : frame.level? = none) :
      Moves ⟨f, calls, site, .run p, stack⟩ m ⟨f, calls, site, .run q, .cons frame stack⟩ m
  | pop {a : Algebra} {α β : Type} {f : Fiber} {calls m : Nat} {site : Site B a}
      {r : Except Interrupted α} {c : Control B P a β} {rest : Stack B P a β ρ}
      (frame : Frame B P a α β) (plain : frame.level? = none) :
      Moves ⟨f, calls, site, .give r, .cons frame rest⟩ m ⟨f, calls, site, c, rest⟩ m
  -- the body of a region gets a token of the new depth
  | enter {a : Algebra} {α : Type} {f : Fiber} {calls m : Nat} {site : Site B a}
      {body : Token → Program B P a α} {stack : Stack B P a α ρ} :
      Moves ⟨f, calls, site, .run (.uncancelable body), stack⟩ m
        ⟨f, calls, site, .run (body ⟨m + 1, m.succ_pos⟩), .cons (.region m) stack⟩ (m + 1)
  -- a poll applies its token, a finalizer takes the place of the frame that held it
  | lower {a : Algebra} {α : Type} {f : Fiber} {calls : Nat} {site : Site B a} {token : Token}
      {p : Program B P a α} {c : Control B P a α} {stack : Stack B P a α ρ} :
      Moves ⟨f, calls, site, .run (.poll token p), stack⟩ token.depth
        ⟨f, calls, site, c, .cons (.unmasked token.depth) stack⟩ token.outer
  | finalize {a : Algebra} {α : Type} {f : Fiber} {calls m : Nat} {site : Site B a}
      {finalizer : Program B P a Unit} {rest : Stack B P a α ρ} :
      Moves ⟨f, calls, site, .give (.error .canceled), .cons (.onCancel finalizer) rest⟩ m
        ⟨f, calls, site, .run finalizer, .cons (.finalizing m) rest⟩ (m + 1)
  -- frames that remember a depth set it
  | restore {a : Algebra} {α β : Type} {f : Fiber} {calls m level : Nat} {site : Site B a}
      {r : Except Interrupted α} {r' : Except Interrupted β} {rest : Stack B P a β ρ}
      (frame : Frame B P a α β) (holds : frame.level? = some level) :
      Moves ⟨f, calls, site, .give r, .cons frame rest⟩ m ⟨f, calls, site, .give r', rest⟩ level
  -- an embedded program sets the depth it was started at
  | embed {a b : Algebra} {α : Type} {f : Fiber} {calls m : Nat} {outside : Site B a}
      {handle : B.Handle b} {p : Program B P b α} {stack : Stack B P a α ρ} :
      Moves ⟨f, calls, outside, .run (.embed handle p), stack⟩ m
        ⟨f, calls, ⟨handle, m, outside.spans⟩, .run p, .embedded outside stack⟩ m
  | unembed {a b : Algebra} {α : Type} {f : Fiber} {calls m : Nat} {outside : Site B a}
      {inside : Site B b} {r : Except Interrupted α} {rest : Stack B P a α ρ} :
      Moves ⟨f, calls, inside, .give r, .embedded outside rest⟩ m
        ⟨f, calls, outside, .give r, rest⟩ inside.entry

theorem Moves.to {s s' : State B P ρ} {m n n' : Nat} (move : Moves s m s' n) (h : n' = n) :
    Moves s m s' n' := by
  rw [h]
  exact move

namespace State

variable {a : Algebra} {α β : Type}

theorem run_moves (bodies : Bodies B P) (rt : Runtime) (f : Fiber) (calls : Nat) (site : Site B a)
    (p : Program B P a α) (stack : Stack B P a α ρ) (sc : Scene B) :
    (run bodies rt f calls site p stack sc).GoesOn fun s' sc' =>
      Moves ⟨f, calls, site, .run p, stack⟩ (sc.fibers.mask f) s' (sc'.fibers.mask f) := by
  -- host code touches no mask, and an observation reports at most what it finds
  cases p with
  | pure x => exact .stay
  | build code k => exact goesOn_hosting fun x sc' e => Moves.stay.to (Scene.mask_of_host e f)
  | call procedure => exact .stay
  | map p g => exact .push (.map g) rfl
  | bind p k => exact .push (.bind k) rfl
  | op o => exact goesOn_observing (fun _ => .stay) fun _ => .stay
  | raw code => exact goesOn_observing (fun _ => .stay) fun _ => .stay
  | delay code =>
    refine goesOn_observing (fun _ => .stay) fun _ => ?_
    exact goesOn_hosting fun x sc' e => Moves.stay.to (Scene.mask_of_host e f)
  | suspend hint code =>
    refine goesOn_observing (fun _ => .stay) fun _ => ?_
    split
    · exact .stay
    · exact goesOn_calling fun result sc' e => Moves.stay.to (Scene.mask_of_host e f)
  | raise failure => exact goesOn_observing (fun _ => .stay) fun _ => .stay
  | monotonic =>
    refine goesOn_observing (fun _ => .stay) fun _ => ?_
    exact goesOn_hosting fun x sc' e => Moves.stay.to (Scene.mask_of_host e f)
  | realtime =>
    refine goesOn_observing (fun _ => .stay) fun _ => ?_
    exact goesOn_hosting fun x sc' e => Moves.stay.to (Scene.mask_of_host e f)
  | canceled =>
    refine goesOn_observing (fun _ => .stay) fun _ => ?_
    exact goesOn_observing (fun _ => .stay) fun _ => .stay
  | embed handle p => exact goesOn_observing (fun _ => .stay) fun _ => .embed
  | handleError p handler =>
    exact goesOn_observing (fun _ => .stay) fun _ => .push (.recover handler) rfl
  | forceR p q => exact goesOn_observing (fun _ => .stay) fun _ => .push (.forceR q) rfl
  | onCancel p finalizer =>
    exact goesOn_observing (fun _ => .stay) fun _ => .push (.onCancel finalizer) rfl
  | uncancelable body =>
    refine goesOn_observing (fun _ => .stay) fun _ => ?_
    exact Moves.enter.to (Fibers.mask_setMask_self ..)
  | poll token p =>
    refine goesOn_observing (fun _ => .stay) fun _ => ?_
    simp only
    split
    · next h =>
      rw [h]
      -- whether the second look ends the program or not, the mask has been lowered before it
      refine goesOn_observing (fun _ => ?_) fun _ => ?_
      · exact Moves.lower.to (Fibers.mask_setMask_self ..)
      · exact Moves.lower.to (Fibers.mask_setMask_self ..)
    · exact .stay

theorem resume_moves (f : Fiber) (calls : Nat) (site : Site B a) (frame : Frame B P a α β)
    (r : Except Interrupted α) (rest : Stack B P a β ρ) (sc : Scene B) :
    (resume f calls site frame r rest sc).GoesOn fun s' sc' =>
      Moves ⟨f, calls, site, .give r, .cons frame rest⟩ (sc.fibers.mask f) s'
        (sc'.fibers.mask f) := by
  cases frame with
  | map g =>
    cases r with
    | ok x =>
      exact goesOn_hosting fun y sc' e => (Moves.pop (.map g) rfl).to (Scene.mask_of_host e f)
    | error i => exact .pop (.map g) rfl
  | bind k => cases r <;> exact .pop (.bind k) rfl
  | recover handler => rcases r with (_ | _) | _ <;> exact .pop (.recover handler) rfl
  | forceR next => rcases r with (_ | _) | _ <;> exact .pop (.forceR next) rfl
  | onCancel finalizer =>
    rcases r with (failure | _) | x
    · exact .pop (.onCancel finalizer) rfl
    · exact Moves.finalize.to (Fibers.mask_setMask_self ..)
    · exact .pop (.onCancel finalizer) rfl
  | finalizing level =>
    rcases r with (failure | _) | x <;>
      exact (Moves.restore (.finalizing level) rfl).to (Fibers.mask_setMask_self ..)
  | region level =>
    refine goesOn_observing (fun _ => ?_) fun _ => ?_
    · exact (Moves.restore (.region level) rfl).to (Fibers.mask_setMask_self ..)
    · exact (Moves.restore (.region level) rfl).to (Fibers.mask_setMask_self ..)
  | unmasked level =>
    exact (Moves.restore (.unmasked level) rfl).to (Fibers.mask_setMask_self ..)

/-- A step is a move, unless the program has a result and nothing remains to be done. -/
theorem step_moves (bodies : Bodies B P) (rt : Runtime) (s : State B P ρ) (sc : Scene B) :
    ((s.step bodies rt sc).GoesOn fun s' sc' =>
      Moves s (sc.fibers.mask s.fiber) s' (sc'.fibers.mask s.fiber)) ∨
    ∃ (a : Algebra) (f : Fiber) (calls : Nat) (site : Site B a) (r : Except Interrupted ρ),
      s = ⟨f, calls, site, .give r, .nil⟩ := by
  rcases s with ⟨f, calls, site, control, stack⟩
  cases control with
  | run p => exact .inl (run_moves bodies rt f calls site p stack sc)
  | give r =>
    cases stack with
    | nil => exact .inr ⟨_, f, calls, site, r, rfl⟩
    | cons frame rest => exact .inl (resume_moves f calls site frame r rest sc)
    | embedded outside rest => exact .inl (Moves.unembed.to (Fibers.mask_setMask_self ..))
  | block turns code =>
    cases turns with
    | zero =>
      exact .inl (goesOn_calling fun result sc' e => Moves.stay.to (Scene.mask_of_host e f))
    | succ turns => exact .inl .stay

variable {bodies : Bodies B P} {rt : Runtime} {s s' : State B P ρ} {sc sc' : Scene B}

/-- A step after which the program goes on is a move. -/
theorem moves_of_goesTo (h : (s.step bodies rt sc).GoesTo s' sc') :
    Moves s (sc.fibers.mask s.fiber) s' (sc'.fibers.mask s.fiber) := by
  rcases step_moves bodies rt s sc with moves | ⟨a, f, calls, site, r, rfl⟩
  · exact moves.at h
  · rcases h with h | h <;> cases h

/-- A program ends where it has a result and nothing remains to be done. -/
theorem eq_of_ended {r : Except Interrupted ρ} (h : s.step bodies rt sc = .ended r sc') :
    ∃ (a : Algebra) (f : Fiber) (calls : Nat) (site : Site B a),
      s = ⟨f, calls, site, .give r, .nil⟩ ∧ sc' = sc.setMask f site.entry := by
  rcases step_moves bodies rt s sc with moves | ⟨a, f, calls, site, r, rfl⟩
  · rw [h] at moves
    exact moves.elim
  · cases h
    exact ⟨a, f, calls, site, rfl, rfl⟩

end State
end Cancelable
