import Cancelable.Proofs.Blocking
import Cancelable.Proofs.Level
import Cancelable.Proofs.Restoration

/-!
# Promptness

Once the cancellation of a fiber is requested while its mask is at the depth zero, its run takes up
no operation any more: whichever it reaches is refused, be it a leaf or one that runs a program, and
so are those that handlers, second programs and the frames of programs around it go on with.  What
goes on is a blocking call that was begun before.  Only two steps change this, and each brings the
mask above zero: the start of a finalizer, and the end of a poll.

That there are no others is read off the level of the stack: at the depth zero neither a region nor
a finalizer is on top of it, for they have raised the mask, and an embedded program that ends there
was started there.

Main statement: from such a point on, and until one of the two steps, nothing is taken up, and of
calls just the one that was begun is made, once, and its result handed to the frames on the stack
(`State.prompt`).
-/

namespace Cancelable

variable {B : Backend} {P : Procedures} {ρ : Type}

/-! ## What raises the mask, and what is taken up -/

namespace State

/-- Whether the next step starts a finalizer or leaves a poll. -/
def raisesMask : State B P ρ → Bool
  | ⟨_, _, _, .give r, .cons (.onCancel _) _⟩ => isCancellation r
  | ⟨_, _, _, .give _, .cons (.unmasked _) _⟩ => true
  | _ => false

/-- The operation that the next step takes up, if any: it carries it out, begins it or enters it.
An operation whose observation finds a cancellation is not taken up. -/
def takesUp (s : State B P ρ) (sc : Scene B) : List (Executed B P) :=
  match s.control with
  | .run p =>
    if p.isOperation && !sc.fibers.isCanceled s.fiber then [⟨s.site.handle, p⟩] else []
  | _ => []

/-- What is carried out is taken up. -/
theorem executes_of_takesUp {s : State B P ρ} {sc : Scene B} (none : s.takesUp sc = []) :
    s.executes sc = [] := by
  obtain ⟨f, calls, site, control, stack⟩ := s
  cases control with
  | run p =>
    simp only [takesUp] at none
    simp only [executes]
    split
    · next carried =>
      obtain ⟨leaf, clear⟩ := Bool.and_eq_true_iff.mp carried
      rw [Program.isOperation_of_isLeaf leaf, clear] at none
      cases none
    · rfl
  | give r => rfl
  | block turns code => rfl

/-- From a point of a run to a later one, in so many steps none of which raises the mask: what was
taken up meanwhile, and which blocking calls were made.  Others may do to the scene what does not
touch the mask of the fiber, and withdraw no request. -/
inductive Unraised (bodies : Bodies B P) (rt : Runtime) (s : State B P ρ) (sc : Scene B) :
    Nat → List (Executed B P) → List (Call B) → State B P ρ → Scene B → Prop where
  | here : Unraised bodies rt s sc 0 [] [] s sc
  | step {n : Nat} {taken : List (Executed B P)} {calls : List (Call B)} {t t' : State B P ρ}
      {sc' sc'' : Scene B} (before : Unraised @bodies rt s sc n taken calls t sc')
      (low : t.raisesMask = false) (next : (t.step bodies rt sc').GoesTo t' sc'') :
      Unraised bodies rt s sc (n + 1) (taken ++ t.takesUp sc') (calls ++ t.makes sc') t' sc''
  | others {n : Nat} {taken : List (Executed B P)} {calls : List (Call B)} {t : State B P ρ}
      {sc' sc'' : Scene B} (before : Unraised @bodies rt s sc n taken calls t sc')
      (spared : sc'.Spared t.fiber sc'') : Unraised bodies rt s sc n taken calls t sc''

end State

/-! ## Points at which all is refused -/

/-- At the depth zero a move that neither raises the mask nor takes up an operation keeps the
depth. -/
theorem Moves.eq_zero {m₀ m n : Nat} {s s' : State B P ρ} (move : Moves s m s' n)
    (level : s.Level m₀ m) (zero : m = 0) (still : s.raisesMask = false)
    (idle : ∀ p, s.control = .run p → p.isOperation = false) : n = 0 := by
  cases move with
  | stay => exact zero
  | push frame plain => exact zero
  | pop frame plain => exact zero
  | enter => cases idle _ rfl
  | lower => cases idle _ rfl
  | finalize => cases still
  | restore frame holds =>
    obtain ⟨k, -, shift⟩ := Stack.level?_rest level
    rw [zero] at shift
    cases frame with
    | unmasked level => cases still
    | region level =>
      simp only [Frame.shift] at shift
      split at shift <;> cases shift
    | finalizing level =>
      simp only [Frame.shift] at shift
      split at shift <;> cases shift
    | _ => cases holds
  | embed => exact zero
  | unembed => exact (Stack.entry_eq_of_bare level rfl).trans zero

namespace State

/-- The request is set, and the mask at the depth zero, as the stack says. -/
structure Low (m₀ : Nat) (s : State B P ρ) (sc : Scene B) : Prop where
  requested : sc.fibers.isRequested s.fiber = true
  unmasked : sc.fibers.mask s.fiber = 0
  level : s.Level m₀ 0

namespace Low

variable {bodies : Bodies B P} {rt : Runtime} {m₀ : Nat} {s s' : State B P ρ} {sc sc' : Scene B}

theorem canceled (h : s.Low m₀ sc) : sc.fibers.isCanceled s.fiber = true := by
  simp [Fibers.isCanceled, Fibers.isMasked, h.requested, h.unmasked]

theorem takesUp (h : s.Low m₀ sc) : s.takesUp sc = [] := by
  obtain ⟨f, calls, site, control, stack⟩ := s
  cases control with
  | run p => simp [State.takesUp, h.canceled]
  | give r => rfl
  | block turns code => rfl

/-- Whatever operation is reached is refused. -/
theorem refuses (h : s.Low m₀ sc) {p : Program B P s.a s.α} (reached : s.control = .run p)
    (operation : p.isOperation = true) :
    s.step bodies rt sc =
      .more ⟨s.fiber, s.calls, s.site, .give (.error .canceled), s.stack⟩
        (sc.emit .cancellationObserved s.site.spans) := by
  rw [step_of_run reached]
  exact run_of_canceled operation h.canceled

theorem spared (h : s.Low m₀ sc) (spared : sc.Spared s.fiber sc') : s.Low m₀ sc' :=
  ⟨spared.isRequested _ h.requested, spared.mask_eq.trans h.unmasked, h.level⟩

theorem step (h : s.Low m₀ sc) (still : s.raisesMask = false)
    (next : (s.step bodies rt sc).GoesTo s' sc') : s'.Low m₀ sc' := by
  have moves : Moves s 0 s' (sc'.fibers.mask s.fiber) := h.unmasked ▸ moves_of_goesTo next
  have requested : sc'.fibers.isRequested s.fiber = true :=
    (step_orderly bodies rt s sc).goesTo next _ h.requested
  have unmasked : sc'.fibers.mask s.fiber = 0 := by
    -- an operation that is refused does not move the mask, and of the other moves none can raise it
    by_cases operation : ∃ p, s.control = .run p ∧ p.isOperation = true
    · obtain ⟨p, reached, operation⟩ := operation
      rw [h.refuses reached operation] at next
      rcases next with next | next
      · cases next
        exact h.unmasked
      · cases next
    · refine moves.eq_zero h.level rfl still fun p reached => ?_
      exact Bool.eq_false_iff.mpr fun is => operation ⟨p, reached, is⟩
  have fiber : s'.fiber = s.fiber := fiber_of_moves moves
  exact ⟨fiber ▸ requested, fiber ▸ unmasked, (unmasked ▸ moves).level h.level⟩

end Low

/-! ## Until the mask is raised -/

namespace Unraised

variable {bodies : Bodies B P} {rt : Runtime} {m₀ n : Nat} {s s' : State B P ρ} {sc sc' : Scene B}
  {taken : List (Executed B P)} {calls : List (Call B)}

theorem fiber_eq (h : Unraised bodies rt s sc n taken calls s' sc') : s'.fiber = s.fiber := by
  induction h with
  | here => rfl
  | step _ _ next ih => rw [fiber_of_moves (moves_of_goesTo next), ih]
  | others _ _ ih => exact ih

/-- All is refused until the mask is raised. -/
theorem low (h : Unraised bodies rt s sc n taken calls s' sc') (start : s.Low m₀ sc) :
    s'.Low m₀ sc' := by
  induction h with
  | here => exact start
  | step _ still next ih => exact ih.step still next
  | others _ spared ih => exact ih.spared spared

theorem taken_eq (h : Unraised bodies rt s sc n taken calls s' sc') (start : s.Low m₀ sc) :
    taken = [] := by
  induction h with
  | here => rfl
  | step before _ _ ih => rw [ih, (before.low start).takesUp, List.append_nil]
  | others _ _ ih => exact ih

/-- The calls that are made, and the one that is still awaited, are what was awaited before. -/
theorem calls_eq (h : Unraised bodies rt s sc n taken calls s' sc') (start : s.Low m₀ sc) :
    calls.map Call.code ++ s'.control.awaited = s.control.awaited := by
  induction h with
  | here => rfl
  | @step n taken calls t t' sc₁ sc₂ before still next ih =>
    have none : t.begins sc₁ = [] := by
      rw [begins, executes_of_takesUp (before.low start).takesUp]
      rfl
    have account := calls_of_step bodies rt t sc₁
    have awaited : (t.step bodies rt sc₁).awaited = t'.control.awaited := by
      rcases next with next | next <;> rw [next] <;> rfl
    rw [none, List.append_nil, awaited] at account
    rw [List.map_append, List.append_assoc, ← account, ih]
  | others _ _ ih => exact ih

/-- A call that was begun is waited for and made, once, and its result handed to the stack that the
run has had all the while. -/
theorem delivers (h : Unraised bodies rt s sc n taken calls s' sc') (start : s.Low m₀ sc)
    {turns : Nat} {code : Host B.World (Except Failure s.α)}
    (awaiting : s.control = .block turns code) :
    (∃ k, n + k = turns ∧ calls = [] ∧
      s' = ⟨s.fiber, s.calls, s.site, .block k code, s.stack⟩) ∨
    ∃ (k : Nat) (result : Except Failure s.α) (sc₁ sc₂ : Scene B), n = turns + 1 + k ∧
      calls = [⟨⟨_, code⟩, sc₁.fibers, sc₁.world⟩] ∧ sc₁.host code = (.ok result, sc₂) ∧
        Unraised bodies rt ⟨s.fiber, s.calls, s.site, .give (result.mapError .errored), s.stack⟩
          sc₂ k [] [] s' sc' := by
  induction h with
  | here =>
    refine .inl ⟨turns, Nat.zero_add turns, rfl, ?_⟩
    show (⟨s.fiber, s.calls, s.site, s.control, s.stack⟩ : State B P ρ) = _
    rw [awaiting]
  | @step n taken calls t t' sc₁ sc₂ before still next ih =>
    rcases ih with ⟨k, count, none, rfl⟩ | ⟨k, result, sc₃, sc₄, count, one, host, after⟩
    · cases k with
      | succ k =>
        -- one turn less is left to wait
        rcases next with next | next
        · cases next
        · cases next
          exact .inl ⟨k, by omega, (List.append_nil calls).trans none, rfl⟩
      | zero =>
        have called : ∃ result, sc₁.host code = (.ok result, sc₂) ∧
            t' = ⟨s.fiber, s.calls, s.site, .give (result.mapError .errored), s.stack⟩ := by
          have made : (calling s.fiber s.calls s.site code s.stack sc₁).GoesOn fun u scu =>
              ∃ result, sc₁.host code = (.ok result, scu) ∧
                u = ⟨s.fiber, s.calls, s.site, .give (result.mapError .errored), s.stack⟩ :=
            goesOn_calling fun result scu host => ⟨result, host, rfl⟩
          exact made.at next
        obtain ⟨result, host, rfl⟩ := called
        refine .inr ⟨0, result, sc₁, sc₂, by omega, ?_, host, .here⟩
        rw [none]
        rfl
    · have idle : t.control.awaited = [] := by
        have account := before.calls_eq start
        rw [one, awaiting] at account
        exact (List.cons.inj account).2
      have further := after.step still next
      rw [(before.low start).takesUp, makes_of_idle idle] at further
      refine .inr ⟨k + 1, result, sc₃, sc₄, by omega, ?_, host, further⟩
      rw [one, makes_of_idle idle, List.append_nil]
  | others _ spared ih =>
    rcases ih with ⟨k, count, none, rfl⟩ | ⟨k, result, sc₃, sc₄, count, one, host, after⟩
    · exact .inl ⟨k, count, none, rfl⟩
    · exact .inr ⟨k, result, sc₃, sc₄, count, one, host, after.others spared⟩

/-- A call that was begun comes to be made, if nobody does anything meanwhile. -/
theorem waits_out {a : Algebra} {α : Type} {f : Fiber} {begun k : Nat} {site : Site B a}
    {code : Host B.World (Except Failure α)} {stack : Stack B P a α ρ}
    (h : Unraised bodies rt s sc n taken calls ⟨f, begun, site, .block k code, stack⟩ sc') :
    Unraised bodies rt s sc (n + k) taken calls ⟨f, begun, site, .block 0 code, stack⟩ sc' := by
  induction k generalizing n taken calls with
  | zero => exact h
  | succ k ih =>
    have next : Unraised bodies rt s sc (n + 1) (taken ++ []) (calls ++ [])
        ⟨f, begun, site, .block k code, stack⟩ sc' := h.step rfl (.inr rfl)
    rw [List.append_nil, List.append_nil] at next
    rw [Nat.add_succ, ← Nat.succ_add]
    exact ih next

end Unraised

section Main

variable {bodies : Bodies B P} {rt : Runtime} {a : Algebra} {f : Fiber} {handle : B.Handle a}
  {p : Program B P a ρ} {s s' : State B P ρ} {sc₀ sc sc' : Scene B}
  {ops taken : List (Executed B P)} {calls : List (Call B)} {n : Nat}

/-- Consider a run that has its fiber to itself, at any point at which the request is set and the
mask at the depth zero, and from there on as long as no finalizer is started and no poll left.  The
request stays set and the mask at zero, so nothing else raises it.  No operation is taken up,
neither a leaf nor one that runs a program: the run ends the program that reaches one canceled.

If no blocking call was awaited at the first point, none is made.  If one was, with some turns to
wait, then up to that many steps it is awaited still, nothing has been done, and if nobody does
anything, the run comes to where it is made.  With the next step it is made, once, and unless it
breaks off, what it returns, be it a value or a failure, is handed to the frames on the stack.  No
other call is made. -/
theorem prompt
    (run : Progress bodies rt (fun _ => True) (start f handle p sc₀.fibers) sc₀ ops s sc)
    (requested : sc.fibers.isRequested f = true) (unmasked : sc.fibers.mask f = 0)
    (later : Unraised bodies rt s sc n taken calls s' sc') :
    (sc'.fibers.isRequested f = true ∧ sc'.fibers.mask f = 0) ∧
    taken = [] ∧
    (∀ q, s'.control = .run q → q.isOperation = true →
      s'.takesUp sc' = [] ∧
        s'.step bodies rt sc' =
          .more ⟨s'.fiber, s'.calls, s'.site, .give (.error .canceled), s'.stack⟩
            (sc'.emit .cancellationObserved s'.site.spans)) ∧
    (s.control.awaited = [] → calls = []) ∧
    ∀ turns code, s.control = .block turns code →
      (∃ k, n + k = turns ∧ calls = [] ∧
        s' = ⟨s.fiber, s.calls, s.site, .block k code, s.stack⟩ ∧
          Unraised bodies rt s sc turns [] []
            ⟨s.fiber, s.calls, s.site, .block 0 code, s.stack⟩ sc') ∨
      ∃ (k : Nat) (result : Except Failure s.α) (sc₁ sc₂ : Scene B), n = turns + 1 + k ∧
        calls = [⟨⟨_, code⟩, sc₁.fibers, sc₁.world⟩] ∧ sc₁.host code = (.ok result, sc₂) ∧
          Unraised bodies rt ⟨s.fiber, s.calls, s.site, .give (result.mapError .errored), s.stack⟩
            sc₂ k [] [] s' sc' := by
  have fiber : s.fiber = f := run.fiber_eq
  have low : s.Low (sc₀.fibers.mask f) sc := by
    refine ⟨fiber ▸ requested, fiber ▸ unmasked, ?_⟩
    have level := run.level
    rwa [fiber, unmasked] at level
  have low' := later.low low
  have fiber' : s'.fiber = f := by rw [later.fiber_eq, fiber]
  refine ⟨⟨fiber' ▸ low'.requested, fiber' ▸ low'.unmasked⟩, later.taken_eq low, ?_, ?_, ?_⟩
  · exact fun q reached operation => ⟨low'.takesUp, low'.refuses reached operation⟩
  · intro idle
    have account := later.calls_eq low
    rw [idle] at account
    exact List.map_eq_nil_iff.mp (List.append_eq_nil_iff.mp account).1
  · intro turns code awaiting
    rcases later.delivers low awaiting with ⟨k, rfl, rfl, rfl⟩ | delivered
    · have none := later.taken_eq low
      subst none
      exact .inl ⟨k, rfl, rfl, rfl, later.waits_out⟩
    · exact .inr delivered

end Main

/-- The cancellation is requested while an embedded program makes a blocking call.  The call is made
all the same, and fails; the handler of the program outside gets the failure, but what it goes on
with is refused. -/
theorem prompt_when_waiting :
    let f : Fiber := ⟨.numbered 0, .numbered 0⟩
    let call : Program .notes .none .largeObject Unit :=
      .suspend .blocking (Host.update fun written : List Nat =>
        (.error (.message ⟨0, []⟩ "failed"), written ++ [1]))
    let p : Program .notes .none .connection Unit :=
      .handleError (.bind (.embed () call) fun _ => .note 2) fun _ => .note 3
    let reached := (start f () p {}).after Bodies.none .stepped 4 (.blank {})
    let sc : Scene .notes := { reached.2 with fibers := reached.2.fibers.cancel f }
    ∃ taken calls s' sc', Unraised Bodies.none .stepped reached.1 sc 5 taken calls s' sc' ∧
      taken = [] ∧ calls.length = 1 ∧ sc'.world = [1] ∧ s'.control.isResult = false ∧
        ∃ sc'', s'.step Bodies.none .stepped sc' =
          .more ⟨s'.fiber, s'.calls, s'.site, .give (.error .canceled), s'.stack⟩ sc'' := by
  intro f call p reached sc
  let blank : Scene .notes := .blank {}
  obtain ⟨ops, run⟩ : ∃ ops, Progress Bodies.none .stepped (fun _ => True)
      (start f () p blank.fibers) blank ops reached.1 reached.2 := progress_after 4 _ _
  have spared : reached.2.Spared reached.1.fiber sc :=
    ⟨rfl, fun g requested => by simp [sc, Fibers.isRequested_cancel, requested]⟩
  have requested : sc.fibers.isRequested f = true := by simp [sc, Fibers.isRequested_cancel]
  have run := run.next (.others spared) trivial
  have later : Unraised Bodies.none .stepped reached.1 sc 5 _ _ _ _ :=
    .step (.step (.step (.step (.step .here rfl (.inr rfl)) rfl (.inl rfl)) rfl (.inl rfl)) rfl
      (.inl rfl)) rfl (.inl rfl)
  obtain ⟨-, none, refuses, -⟩ := prompt (f := f) run requested rfl later
  exact ⟨_, _, _, _, later, none, rfl, rfl, rfl, _, (refuses _ rfl rfl).2⟩

end State
end Cancelable
