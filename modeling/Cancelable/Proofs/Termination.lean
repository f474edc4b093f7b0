import Cancelable.Proofs.Polls

/-!
# Termination

A program is a finite tree, but it may call procedures by name, and so repeat itself without bound.
A program is *grounded* if unfolding the calls comes to an end, whatever values the closures are
given.  The machine does not run a program inside another one: it puts a frame on the stack, and the
frame may go on with further programs later.  So nothing gets smaller from step to step.

What does get smaller is found from the stack upwards.  A stack *finishes* if a run ends whatever
result is handed to it.  To put a frame on it keeps it so, if the programs that the frame may go on
with end on the stack below; and a grounded program ends on every stack that finishes.

Main statements: if the bodies of all procedures are grounded, every program is
(`Program.grounded_of_bodies`), and the run of a grounded program comes to an empty stack, whatever
others do to the scene meanwhile, unless host code that it calls breaks off
(`Program.Grounded.run_ends`).
-/

namespace Cancelable

variable {B : Backend} {P : Procedures} {ρ : Type}

/-! ## Grounded programs -/

/-- A program whose tree is finite when every call is replaced by the body of the procedure, and
whose closures make such programs only. -/
inductive Program.Grounded (bodies : Bodies B P) :
    {a : Algebra} → {α : Type} → Program B P a α → Prop where
  | pure {a : Algebra} {α : Type} (x : α) : Grounded @bodies (.pure x : Program B P a α)
  | leaf {a : Algebra} {α : Type} {p : Program B P a α} (leaf : p.isLeaf = true) :
      Grounded @bodies p
  | build {a : Algebra} {σ α : Type} (code : Host B.World σ) {k : σ → Program B P a α}
      (h : ∀ x, Grounded @bodies (k x)) : Grounded @bodies (.build code k)
  | call {a : Algebra} {α : Type} {procedure : P a α} (h : Grounded @bodies (bodies procedure)) :
      Grounded @bodies (.call procedure)
  | map {a : Algebra} {α β : Type} {p : Program B P a α} (g : α → Host B.World β)
      (h : Grounded @bodies p) : Grounded @bodies (.map p g)
  | bind {a : Algebra} {α β : Type} {p : Program B P a α} {k : α → Program B P a β}
      (h : Grounded @bodies p) (hk : ∀ x, Grounded @bodies (k x)) : Grounded @bodies (.bind p k)
  | embed {a b : Algebra} {α : Type} (handle : B.Handle b) {p : Program B P b α}
      (h : Grounded @bodies p) : Grounded @bodies (.embed handle p : Program B P a α)
  | handleError {a : Algebra} {α : Type} {p : Program B P a α} {handler : Failure → Program B P a α}
      (h : Grounded @bodies p) (hk : ∀ failure, Grounded @bodies (handler failure)) :
      Grounded @bodies (.handleError p handler)
  | forceR {a : Algebra} {α β : Type} {p : Program B P a α} {q : Program B P a β}
      (h : Grounded @bodies p) (hq : Grounded @bodies q) : Grounded @bodies (.forceR p q)
  | uncancelable {a : Algebra} {α : Type} {body : Token → Program B P a α}
      (h : ∀ token, Grounded @bodies (body token)) : Grounded @bodies (.uncancelable body)
  | poll {a : Algebra} {α : Type} (token : Token) {p : Program B P a α} (h : Grounded @bodies p) :
      Grounded @bodies (.poll token p)
  | onCancel {a : Algebra} {α : Type} {p : Program B P a α} {finalizer : Program B P a Unit}
      (h : Grounded @bodies p) (hf : Grounded @bodies finalizer) :
      Grounded @bodies (.onCancel p finalizer)

/-- If the bodies of all procedures are grounded, every program is. -/
theorem Program.grounded_of_bodies {bodies : Bodies B P}
    (grounded : ∀ {a : Algebra} {α : Type} (procedure : P a α), (bodies procedure).Grounded bodies)
    {a : Algebra} {α : Type} (p : Program B P a α) : p.Grounded bodies := by
  induction p with
  | pure x => exact .pure x
  | build code k ih => exact .build code ih
  | call procedure => exact .call (grounded procedure)
  | map p g ih => exact .map g ih
  | bind p k ih ihk => exact .bind ih ihk
  | embed handle p ih => exact .embed handle ih
  | handleError p handler ih ihk => exact .handleError ih ihk
  | forceR p q ih ihq => exact .forceR ih ihq
  | uncancelable body ih => exact .uncancelable ih
  | poll token p ih => exact .poll token ih
  | onCancel p finalizer ih ihf => exact .onCancel ih ihf
  | op | raw | delay | suspend | raise | monotonic | realtime | canceled => exact .leaf rfl

/-! ## Runs that end -/

section Ending

variable (bodies : Bodies B P) (rt : Runtime)

/-- A step can lead from one state to another, in some scene. -/
def State.LeadsTo (s t : State B P ρ) : Prop :=
  ∃ sc sc', (s.step bodies rt sc).GoesTo t sc'

/-- There is no end of steps from the state on in no scenes whatever: the scene may be another one
before every step. -/
def State.Terminates (s : State B P ρ) : Prop :=
  Acc (fun t s => s.LeadsTo bodies rt t) s

/-- A run ends whatever result is handed to the stack. -/
def Stack.Finishes {a : Algebra} {α : Type} (stack : Stack B P a α ρ) : Prop :=
  ∀ (f : Fiber) (calls : Nat) (site : Site B a) (r : Except Interrupted α),
    State.Terminates bodies rt ⟨f, calls, site, .give r, stack⟩

variable {bodies rt}

/-- A run ends if it does so after any one step. -/
theorem State.terminates_of_goesOn {s : State B P ρ}
    (h : ∀ sc, (s.step bodies rt sc).GoesOn fun t _ => t.Terminates bodies rt) :
    s.Terminates bodies rt := by
  refine Acc.intro s ?_
  rintro t ⟨sc, sc', goes⟩
  exact (h sc).at goes

variable {a b : Algebra} {α β : Type}

/-! ## Stacks that finish -/

namespace Stack.Finishes

variable {stack : Stack B P a α ρ}

theorem nil : (nil : Stack B P a ρ ρ).Finishes bodies rt := by
  intro f calls site r
  refine Acc.intro _ ?_
  rintro t ⟨sc, sc', goes | goes⟩
  · cases goes
  · cases goes

/-- The end of an embedded program hands its result on. -/
theorem embedded {outside : Site B a} (h : stack.Finishes bodies rt) :
    (.embedded outside stack : Stack B P b α ρ).Finishes bodies rt :=
  fun f calls _ r => State.terminates_of_goesOn fun _ => h f calls outside r

theorem map {g : β → Host B.World α} (h : stack.Finishes bodies rt) :
    (cons (.map g) stack).Finishes bodies rt := by
  intro f calls site r
  refine State.terminates_of_goesOn fun sc => ?_
  cases r with
  | ok x => exact State.goesOn_hosting fun y sc' _ => h f calls site (.ok y)
  | error i => exact h f calls site (.error i)

theorem bind {k : β → Program B P a α} (h : stack.Finishes bodies rt)
    (hk : ∀ x f calls site, State.Terminates bodies rt ⟨f, calls, site, .run (k x), stack⟩) :
    (cons (.bind k) stack).Finishes bodies rt := by
  intro f calls site r
  refine State.terminates_of_goesOn fun sc => ?_
  cases r with
  | ok x => exact hk x f calls site
  | error i => exact h f calls site (.error i)

theorem recover {handler : Failure → Program B P a α} (h : stack.Finishes bodies rt)
    (hk : ∀ failure f calls site,
      State.Terminates bodies rt ⟨f, calls, site, .run (handler failure), stack⟩) :
    (cons (.recover handler) stack).Finishes bodies rt := by
  intro f calls site r
  refine State.terminates_of_goesOn fun sc => ?_
  rcases r with (failure | _) | x
  · exact hk failure f calls site
  · exact h f calls site (.error .canceled)
  · exact h f calls site (.ok x)

theorem forceR {next : Program B P a α} (h : stack.Finishes bodies rt)
    (hq : ∀ f calls site, State.Terminates bodies rt ⟨f, calls, site, .run next, stack⟩) :
    (cons (.forceR next : Frame B P a β α) stack).Finishes bodies rt := by
  intro f calls site r
  refine State.terminates_of_goesOn fun sc => ?_
  rcases r with (failure | _) | x
  · exact hq f calls site
  · exact h f calls site (.error .canceled)
  · exact hq f calls site

theorem finalizing {level : Nat} (h : stack.Finishes bodies rt) :
    (cons (.finalizing level) stack).Finishes bodies rt :=
  fun f calls site _ => State.terminates_of_goesOn fun _ => h f calls site (.error .canceled)

/-- The finalizer runs on the same stack, with a frame in between that waits for it. -/
theorem onCancel {finalizer : Program B P a Unit} (h : stack.Finishes bodies rt)
    (hf : ∀ level f calls site, State.Terminates bodies rt
      ⟨f, calls, site, .run finalizer, .cons (.finalizing level) stack⟩) :
    (cons (.onCancel finalizer) stack).Finishes bodies rt := by
  intro f calls site r
  refine State.terminates_of_goesOn fun sc => ?_
  rcases r with (failure | _) | x
  · exact h f calls site (.error (.errored failure))
  · exact hf (sc.fibers.mask f) f calls site
  · exact h f calls site (.ok x)

theorem region {level : Nat} (h : stack.Finishes bodies rt) :
    (cons (.region level) stack).Finishes bodies rt := by
  intro f calls site r
  refine State.terminates_of_goesOn fun sc => ?_
  exact State.goesOn_observing (fun _ => h f calls site (.error .canceled)) fun _ =>
    h f calls site r

theorem unmasked {level : Nat} (h : stack.Finishes bodies rt) :
    (cons (.unmasked level) stack).Finishes bodies rt :=
  fun f calls site r => State.terminates_of_goesOn fun _ => h f calls site r

end Stack.Finishes

/-! ## Grounded programs end -/

/-- A blocking call waits for so many turns, is made and hands on its result. -/
theorem State.terminates_block {stack : Stack B P a α ρ} (h : stack.Finishes bodies rt)
    (f : Fiber) (calls : Nat) (site : Site B a) (turns : Nat)
    (code : Host B.World (Except Failure α)) :
    State.Terminates bodies rt ⟨f, calls, site, .block turns code, stack⟩ := by
  induction turns with
  | zero =>
    exact terminates_of_goesOn fun sc => goesOn_calling fun result sc' _ => h f calls site _
  | succ turns ih => exact terminates_of_goesOn fun sc => ih

/-- An operation is refused, or ends as what it does otherwise. -/
theorem State.terminates_operation {stack : Stack B P a α ρ} (h : stack.Finishes bodies rt)
    {f : Fiber} {calls : Nat} {site : Site B a} {p : Program B P a α} {next : Scene B → Next B P ρ}
    (step : ∀ sc, State.step bodies rt ⟨f, calls, site, .run p, stack⟩ sc =
      observing f calls site stack sc next)
    (clear : ∀ sc, (next sc).GoesOn fun t _ => t.Terminates bodies rt) :
    State.Terminates bodies rt ⟨f, calls, site, .run p, stack⟩ := by
  refine terminates_of_goesOn fun sc => ?_
  rw [step]
  exact goesOn_observing (fun _ => h f calls site (.error .canceled)) fun _ => clear sc

/-- An operation that is carried out at once hands on a result, perhaps after a blocking call. -/
theorem Program.terminates_of_leaf {stack : Stack B P a α ρ} (h : stack.Finishes bodies rt)
    {p : Program B P a α} (leaf : p.isLeaf = true) (f : Fiber) (calls : Nat) (site : Site B a) :
    State.Terminates bodies rt ⟨f, calls, site, .run p, stack⟩ := by
  cases p with
  | op | raw =>
    exact State.terminates_operation h (fun _ => rfl) fun sc => State.terminates_block h ..
  | suspend hint code =>
    refine State.terminates_operation h (fun _ => rfl) fun sc => ?_
    split
    · exact State.terminates_block h ..
    · exact State.goesOn_calling fun result sc' _ => h f calls site _
  | delay | monotonic | realtime =>
    refine State.terminates_operation h (fun _ => rfl) fun sc => ?_
    exact State.goesOn_hosting fun x sc' _ => h f calls site (.ok x)
  | raise failure =>
    exact State.terminates_operation h (fun _ => rfl) fun sc => h f calls site _
  | canceled =>
    refine State.terminates_operation h (fun _ => rfl) fun sc => ?_
    exact State.goesOn_observing (fun _ => h f calls site _) fun _ => h f calls site (.ok ())
  | pure | build | call | map | bind | embed | handleError | forceR | uncancelable | poll
  | onCancel => cases leaf

/-- A grounded program ends on every stack that finishes. -/
theorem Program.Grounded.terminates {p : Program B P a α} (grounded : p.Grounded bodies)
    {stack : Stack B P a α ρ} (h : stack.Finishes bodies rt) (f : Fiber) (calls : Nat)
    (site : Site B a) : State.Terminates bodies rt ⟨f, calls, site, .run p, stack⟩ := by
  -- the induction is on the tree; whatever a construct puts on the stack keeps it finishing
  induction grounded generalizing f calls with
  | pure x => exact State.terminates_of_goesOn fun sc => h f calls site (.ok x)
  | leaf leaf => exact terminates_of_leaf h leaf f calls site
  | build code _ ih =>
    exact State.terminates_of_goesOn fun sc => State.goesOn_hosting fun x _ _ => ih x h f calls site
  | call _ ih => exact State.terminates_of_goesOn fun sc => ih h f calls site
  | map g _ ih => exact State.terminates_of_goesOn fun sc => ih h.map f calls site
  | bind _ _ ih ihk =>
    refine State.terminates_of_goesOn fun sc => ih (h.bind ?_) f calls site
    exact fun x f calls site => ihk x h f calls site
  | embed handle _ ih =>
    exact State.terminates_operation h (fun _ => rfl) fun sc => ih h.embedded f calls _
  | handleError _ _ ih ihk =>
    refine State.terminates_operation h (fun _ => rfl) fun sc => ih (h.recover ?_) f calls site
    exact fun failure f calls site => ihk failure h f calls site
  | forceR _ _ ih ihq =>
    refine State.terminates_operation h (fun _ => rfl) fun sc => ih (h.forceR ?_) f calls site
    exact fun f calls site => ihq h f calls site
  | uncancelable _ ih =>
    exact State.terminates_operation h (fun _ => rfl) fun sc => ih _ h.region f calls site
  | poll token _ ih =>
    refine State.terminates_operation h (fun _ => rfl) fun sc => ?_
    -- the program runs on a stack of its own only if the token works
    simp only
    split
    · exact State.goesOn_observing (fun _ => h.unmasked f calls site _) fun _ =>
        ih h.unmasked f calls site
    · exact ih h f calls site
  | onCancel _ _ ih ihf =>
    refine State.terminates_operation h (fun _ => rfl) fun sc => ih (h.onCancel ?_) f calls site
    exact fun _ f calls site => ihf h.finalizing f calls site

end Ending

/-! ## Host code that breaks off -/

namespace State

/-- The host code that the next step calls, if any. -/
def hosts? (s : State B P ρ) (sc : Scene B) : Option (Σ β : Type, Host B.World β) :=
  match s with
  | ⟨_, _, _, .run (.build code _), _⟩ => some ⟨_, code⟩
  | ⟨f, _, _, .run (.delay code), _⟩ => if sc.fibers.isCanceled f then none else some ⟨_, code⟩
  | ⟨f, _, _, .run (.suspend hint code), _⟩ =>
    if sc.fibers.isCanceled f || hint.isBlocking then none else some ⟨_, code⟩
  | ⟨f, _, _, .run .monotonic, _⟩ => if sc.fibers.isCanceled f then none else some ⟨_, B.monotonic⟩
  | ⟨f, _, _, .run .realtime, _⟩ => if sc.fibers.isCanceled f then none else some ⟨_, B.realtime⟩
  | ⟨_, _, _, .give (.ok x), .cons (.map g) _⟩ => some ⟨_, g x⟩
  | ⟨_, _, _, .block 0 code, _⟩ => some ⟨_, code⟩
  | _ => none

/-- Host code of the next step breaks off in the scene. -/
def BreaksOff (s : State B P ρ) (sc : Scene B) (panic : Panic) : Prop :=
  ∃ code, s.hosts? sc = some code ∧ (code.2 sc.fibers sc.world).exit = .error panic

section Parts

variable {a : Algebra} {α β : Type} {f : Fiber} {calls : Nat} {site : Site B a}
  {stack : Stack B P a α ρ} {sc sc' : Scene B} {panic : Panic}

theorem panicked_hosting {code : Host B.World β} {next : β → Scene B → Next B P ρ}
    (broken : hosting f site code stack sc next = .panicked panic sc')
    (goesOn : ∀ x sc₁, next x sc₁ ≠ .panicked panic sc') :
    (code sc.fibers sc.world).exit = .error panic := by
  refine hosting_cases (M := fun n => n = .panicked panic sc' → _) ?_ ?_ broken
  · exact fun x sc₁ _ broken => absurd broken (goesOn x sc₁)
  · rintro _ sc₁ host ⟨⟩
    exact congrArg Prod.fst host

/-- An observation breaks nothing off, so it was clear. -/
theorem panicked_observing {next : Scene B → Next B P ρ}
    (broken : observing f calls site stack sc next = .panicked panic sc') :
    sc.fibers.isCanceled f = false ∧ next sc = .panicked panic sc' := by
  cases canceled : sc.fibers.isCanceled f with
  | true =>
    rw [observing_of_canceled canceled] at broken
    cases broken
  | false =>
    rw [observing_of_clear canceled] at broken
    exact ⟨rfl, broken⟩

end Parts

/-- A run breaks off in a step only if host code that the step calls does. -/
theorem breaksOff_of_panicked {bodies : Bodies B P} {rt : Runtime} {s : State B P ρ}
    {sc sc' : Scene B} {panic : Panic} (broken : s.step bodies rt sc = .panicked panic sc') :
    s.BreaksOff sc panic := by
  obtain ⟨f, calls, site, control, stack⟩ := s
  cases control with
  | run p =>
    cases p with
    | build code k => exact ⟨_, rfl, panicked_hosting broken fun _ _ => nofun⟩
    | delay code =>
      obtain ⟨clear, broken⟩ := panicked_observing broken
      exact ⟨⟨_, code⟩, by simp [hosts?, clear], panicked_hosting broken fun _ _ => nofun⟩
    | suspend hint code =>
      obtain ⟨clear, broken⟩ := panicked_observing broken
      split at broken
      · cases broken
      · next inline =>
        exact ⟨⟨_, code⟩, by simp [hosts?, clear, inline], panicked_hosting broken fun _ _ => nofun⟩
    | monotonic =>
      obtain ⟨clear, broken⟩ := panicked_observing broken
      exact ⟨⟨_, B.monotonic⟩, by simp [hosts?, clear], panicked_hosting broken fun _ _ => nofun⟩
    | realtime =>
      obtain ⟨clear, broken⟩ := panicked_observing broken
      exact ⟨⟨_, B.realtime⟩, by simp [hosts?, clear], panicked_hosting broken fun _ _ => nofun⟩
    | canceled =>
      obtain ⟨-, broken⟩ := panicked_observing broken
      obtain ⟨-, broken⟩ := panicked_observing broken
      cases broken
    | poll token p =>
      obtain ⟨-, broken⟩ := panicked_observing broken
      simp only at broken
      split at broken
      · obtain ⟨-, broken⟩ := panicked_observing broken
        cases broken
      · cases broken
    | op | raw | raise | embed | handleError | forceR | onCancel | uncancelable =>
      obtain ⟨-, broken⟩ := panicked_observing broken
      cases broken
    | pure | call | map | bind => cases broken
  | give r =>
    cases stack with
    | nil => cases broken
    | embedded outside rest => cases broken
    | cons frame rest =>
      cases frame with
      | map g =>
        cases r with
        | ok x => exact ⟨_, rfl, panicked_hosting broken fun _ _ => nofun⟩
        | error i => cases broken
      | region level =>
        obtain ⟨-, broken⟩ := panicked_observing broken
        cases broken
      | bind | recover | forceR | onCancel | finalizing | unmasked =>
        rcases r with (_ | _) | _ <;> cases broken
  | block turns code =>
    cases turns with
    | zero => exact ⟨_, rfl, panicked_hosting broken fun _ _ => nofun⟩
    | succ turns => cases broken

end State

/-! ## Runs among others -/

/-- The point of a run after a number of steps, if it is not over by then.  Before every step others
do to the scene what they like. -/
def among (bodies : Bodies B P) (rt : Runtime) (others : Nat → Scene B → Scene B)
    (s : State B P ρ) (sc : Scene B) : Nat → Option (State B P ρ × Scene B)
  | 0 => some (s, others 0 sc)
  | n + 1 =>
    match among bodies rt others s sc n with
    | none => none
    | some (t, sc) =>
      match t.step bodies rt sc with
      | .more t sc => some (t, others (n + 1) sc)
      | .waiting t sc => some (t, others (n + 1) sc)
      | .ended _ _ => none
      | .panicked _ _ => none

/-- The run has come to an empty stack, and ends with the result that it has there. -/
def State.Closes (bodies : Bodies B P) (rt : Runtime) (s : State B P ρ) (sc : Scene B) : Prop :=
  ∃ (b : Algebra) (f : Fiber) (calls : Nat) (site : Site B b) (r : Except Interrupted ρ),
    s = ⟨f, calls, site, .give r, .nil⟩ ∧ s.step bodies rt sc = .ended r (sc.setMask f site.entry)

section Among

variable {bodies : Bodies B P} {rt : Runtime} {others : Nat → Scene B → Scene B} {s t : State B P ρ}
  {sc sc' : Scene B} {n : Nat}

theorem among_zero (others : Nat → Scene B → Scene B) (sc : Scene B) :
    among bodies rt others s sc 0 = some (s, others 0 sc) := rfl

theorem among_succ (here : among bodies rt others s sc n = some (t, sc')) :
    among bodies rt others s sc (n + 1) =
      match t.step bodies rt sc' with
      | .more t sc => some (t, others (n + 1) sc)
      | .waiting t sc => some (t, others (n + 1) sc)
      | .ended _ _ => none
      | .panicked _ _ => none := by
  rw [among, here]

theorem State.closes_of_ended {r : Except Interrupted ρ} {sc₁ : Scene B}
    (ended : t.step bodies rt sc = .ended r sc₁) : t.Closes bodies rt sc := by
  obtain ⟨b, f, calls, site, rfl, rfl⟩ := eq_of_ended ended
  exact ⟨b, f, calls, site, r, rfl, ended⟩

/-- A run that terminates comes to a last point, after which it is over. -/
theorem State.Terminates.last (h : t.Terminates bodies rt)
    (here : among bodies rt others s sc n = some (t, sc')) :
    ∃ m u sc₁, among bodies rt others s sc m = some (u, sc₁) ∧
      ((∃ r sc₂, u.step bodies rt sc₁ = .ended r sc₂) ∨
        ∃ panic sc₂, u.step bodies rt sc₁ = .panicked panic sc₂) := by
  -- as long as the run goes on, each step leads to a state that is accessible before its own
  induction h generalizing n sc' with
  | intro t _ ih =>
    have next := among_succ here
    cases e : t.step bodies rt sc' with
    | more u sc₁ =>
      rw [e] at next
      exact ih u ⟨sc', sc₁, .inl e⟩ next
    | waiting u sc₁ =>
      rw [e] at next
      exact ih u ⟨sc', sc₁, .inr e⟩ next
    | ended r sc₁ => exact ⟨n, t, sc', here, .inl ⟨r, sc₁, e⟩⟩
    | panicked panic sc₁ => exact ⟨n, t, sc', here, .inr ⟨panic, sc₁, e⟩⟩

/-- The course of a run that nobody disturbs goes through the same points. -/
theorem course_of_among (here : among bodies rt Scene.undisturbed s sc n = some (t, sc')) :
    let c := course bodies rt Scene.undisturbed s sc n
    c.ending? = none ∧ c.state = t ∧ c.scene = sc' := by
  intro c
  induction n generalizing t sc' with
  | zero =>
    cases here
    exact ⟨rfl, rfl, rfl⟩
  | succ n ih =>
    cases before : among bodies rt Scene.undisturbed s sc n with
    | none =>
      rw [among, before] at here
      cases here
    | some point =>
      obtain ⟨u, sc₁⟩ := point
      obtain ⟨pending, rfl, rfl⟩ := ih before
      have follows : c = _ := Course.next_of_pending pending
      rw [among_succ before] at here
      rw [follows]
      cases e : (course bodies rt Scene.undisturbed s sc n).state.step bodies rt
          (course bodies rt Scene.undisturbed s sc n).scene with
      | more u sc₁ =>
        rw [e] at here
        cases here
        exact ⟨pending, rfl, rfl⟩
      | waiting u sc₁ =>
        rw [e] at here
        cases here
        exact ⟨pending, rfl, rfl⟩
      | ended r sc₁ =>
        rw [e] at here
        cases here
      | panicked panic sc₁ =>
        rw [e] at here
        cases here

end Among

namespace Program.Grounded

variable {a : Algebra} {bodies : Bodies B P} {p : Program B P a ρ}

/-- Consider the run of a grounded program on a handle, in a fiber, in any scene.  Whatever others
do to the scene before every step, be it that they request cancellations, after a number of steps
the run has come to an empty stack and ends with the result that it has there, unless host code that
it calls breaks off.  In particular it ends with a result if the calls of handles and all other host
code that is called on the way return.

A machine that nobody disturbs gets to the end with some bound, and with every larger one. -/
theorem run_ends (grounded : p.Grounded bodies) (rt : Runtime) (f : Fiber) (handle : B.Handle a)
    (sc : Scene B) :
    (∀ others : Nat → Scene B → Scene B,
      let point := among bodies rt others (.start f handle p sc.fibers) sc
      ∃ n s sc', point n = some (s, sc') ∧
        (s.Closes bodies rt sc' ∨ ∃ panic, s.BreaksOff sc' panic)) ∧
    (∀ others : Nat → Scene B → Scene B,
      let point := among bodies rt others (.start f handle p sc.fibers) sc
      (∀ n s sc' panic, point n = some (s, sc') → ¬s.BreaksOff sc' panic) →
        ∃ n s sc', point n = some (s, sc') ∧ s.Closes bodies rt sc') ∧
    ∃ n e sc', e ≠ .exhausted ∧ ∀ bound, n ≤ bound →
      (⟨bodies, rt, bound⟩ : Machine B P).run f handle p sc = (e, sc') := by
  have terminates : State.Terminates bodies rt (.start f handle p sc.fibers) :=
    grounded.terminates .nil f 0 _
  have comesTo (others : Nat → Scene B → Scene B) :
      ∃ n s sc', among bodies rt others (.start f handle p sc.fibers) sc n = some (s, sc') ∧
        (s.Closes bodies rt sc' ∨ ∃ panic, s.BreaksOff sc' panic) := by
    obtain ⟨n, s, sc', here, ⟨r, sc'', ended⟩ | ⟨panic, sc'', broken⟩⟩ :=
      terminates.last (among_zero others sc)
    · exact ⟨n, s, sc', here, .inl (State.closes_of_ended ended)⟩
    · exact ⟨n, s, sc', here, .inr ⟨panic, State.breaksOff_of_panicked broken⟩⟩
  refine ⟨comesTo, ?_, ?_⟩
  · intro others point returns
    obtain ⟨n, s, sc', here, closes | ⟨panic, broken⟩⟩ := comesTo others
    · exact ⟨n, s, sc', here, closes⟩
    · exact absurd broken (returns n s sc' panic here)
  · obtain ⟨n, s, sc', here, last⟩ :=
      terminates.last (among_zero Scene.undisturbed sc)
    obtain ⟨pending, rfl, rfl⟩ := course_of_among here
    let m (bound : Nat) : Machine B P := ⟨bodies, rt, bound⟩
    have next : (m 0).course f handle p sc (n + 1) = _ := Course.next_of_pending pending
    -- the step after the last point brings the end of the course
    have finished (e : Ending ρ) (known : e ≠ .exhausted)
        (ended : ((m 0).course f handle p sc (n + 1)).ending? = some e) :
        ∃ n e sc', e ≠ .exhausted ∧ ∀ bound, n ≤ bound → (m bound).run f handle p sc = (e, sc') :=
      ⟨n + 1, e, e.report a ((m 0).course f handle p sc (n + 1)).scene, known,
        fun bound le => Machine.run_of_course (m := m bound) le ended⟩
    rcases last with ⟨r, sc'', ended⟩ | ⟨panic, sc'', broken⟩
    · refine finished (.outcome (.ofExcept r)) nofun ?_
      rw [next, ended]
      rfl
    · refine finished (.panicked panic) nofun ?_
      rw [next, broken]
      rfl

end Program.Grounded

/-! ## Counting down -/

/-- Procedures that count down from a number. -/
inductive CountDown : Algebra → Type → Type 1 where
  | from (n : Nat) : CountDown .connection Unit

/-- A number is noted in an embedded program, and the rest is counted down; so it is, too, if there
is a failure or a cancellation. -/
def CountDown.body : Bodies .notes CountDown
  | _, _, .from 0 => .pure ()
  | _, _, .from (n + 1) =>
    .onCancel
      (.handleError
        (.bind (.embed () (.note n : Program .notes CountDown .largeObject Unit)) fun _ =>
          .call (.from n))
        fun _ => .call (.from n))
      (.call (.from n))

theorem CountDown.grounded (n : Nat) :
    (.call (.from n) : Program .notes CountDown .connection Unit).Grounded body := by
  induction n with
  | zero => exact .call (.pure ())
  | succ n ih =>
    exact .call (.onCancel (.handleError (.bind (.embed _ (.leaf rfl)) fun _ => ih) fun _ => ih) ih)

/-- Counting down calls itself at each number again, and comes to an end on every runtime, also if
the cancellation is requested before the fourth step and the finalizers count down in turn. -/
theorem Program.Grounded.run_ends_of_countDown :
    let f : Fiber := ⟨.numbered 0, .numbered 0⟩
    let p : Program .notes CountDown .connection Unit := .call (.from 2)
    let others (n : Nat) (sc : Scene .notes) : Scene .notes :=
      if n = 3 then { sc with fibers := sc.fibers.cancel f } else sc
    p.Grounded CountDown.body ∧
      (∃ n s sc', among CountDown.body .stepped others (.start f () p {}) (.blank {}) n =
          some (s, sc') ∧
        (s.Closes CountDown.body .stepped sc' ∨ ∃ panic, s.BreaksOff sc' panic)) ∧
      ∃ n e sc', e ≠ .exhausted ∧ ∀ bound, n ≤ bound →
        (⟨CountDown.body, .stepped, bound⟩ : Machine .notes CountDown).run f () p (.blank {}) =
          (e, sc') := by
  intro f p others
  obtain ⟨amongOthers, -, alone⟩ := (CountDown.grounded 2).run_ends .stepped f () (.blank {})
  exact ⟨CountDown.grounded 2, amongOthers others, alone⟩

end Cancelable
