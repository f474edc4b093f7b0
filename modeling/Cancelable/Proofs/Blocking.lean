import Cancelable.Proofs.Ends
import Cancelable.Proofs.Looks
import Cancelable.Proofs.Provenance

/-!
# Blocking calls

An operation that blocks is carried out in two parts.  Where it is reached the call is begun, and
the state holds its code from then on; when the turns that the runtime makes it wait are over, the
code is run, once, and what it returns is handed to the frames above.  In between the state does
nothing but count the turns.  All other steps have to do with no blocking call.

Main statements: every step begins a call, waits for one, makes one or passes by
(`State.blocks_step`); so the calls that are made are those that were begun, in the same order, but
for the one that is still awaited (`State.calls_of_step`).
-/

namespace Cancelable

variable {B : Backend} {P : Procedures} {ρ : Type}

theorem Program.isLeaf_of_isBlocking {a : Algebra} {α : Type} {p : Program B P a α}
    (blocking : p.isBlocking = true) : p.isLeaf = true := by
  cases p with
  | op | raw | suspend => rfl
  | _ => cases blocking

/-! ## Calls -/

/-- The code of a blocking call. -/
abbrev Code (B : Backend) : Type 1 :=
  Σ α : Type, Host B.World (Except Failure α)

/-- A blocking call that was made: its code, and what it was run on. -/
structure Call (B : Backend) : Type 1 where
  code : Code B
  fibers : Fibers
  world : B.World

/-- The code of an operation, if it is a blocking call. -/
def Executed.blockingCode? (e : Executed B P) : Option (Code B) :=
  if e.operation.isBlocking then (e.operation.code? e.handle).map (⟨_, ·⟩) else none

/-- The code of a call that was begun and not made yet. -/
def Control.awaited {a : Algebra} {α : Type} : Control B P a α → List (Code B)
  | .block _ code => [⟨_, code⟩]
  | _ => []

/-- How many turns the first blocking calls of a run wait, all in all. -/
def Runtime.waits (rt : Runtime) : Nat → Nat
  | 0 => 0
  | calls + 1 => rt.waits calls + rt.turns calls

/-- How many turns the call that was begun has to wait still. -/
def Control.delay {a : Algebra} {α : Type} : Control B P a α → Nat
  | .block turns _ => turns
  | _ => 0

namespace State

theorem delay_of_idle {s : State B P ρ} (idle : s.control.awaited = []) : s.control.delay = 0 := by
  obtain ⟨f, calls, site, control, stack⟩ := s
  cases control with
  | block turns code => cases idle
  | _ => rfl

/-- The blocking call that the next step makes, if any. -/
def makes (s : State B P ρ) (sc : Scene B) : List (Call B) :=
  match s.control with
  | .block 0 code => [⟨⟨_, code⟩, sc.fibers, sc.world⟩]
  | _ => []

/-- The codes of the blocking calls that the next step begins. -/
def begins (s : State B P ρ) (sc : Scene B) : List (Code B) :=
  (s.executes sc).filterMap Executed.blockingCode?

end State

/-! ## Steps that do not wait -/

/-- A step after which the program goes on leads on at once, to a state that meets a condition. -/
def Next.AtOnce (Q : State B P ρ → Prop) : Next B P ρ → Prop
  | .more s _ => Q s
  | .waiting _ _ => False
  | .ended _ _ => True
  | .panicked _ _ => True

namespace State

section Parts

variable {a : Algebra} {α β : Type} {f : Fiber} {calls : Nat} {site : Site B a}
  {stack : Stack B P a α ρ} {sc : Scene B} {Q : State B P ρ → Prop}

theorem atOnce_hosting {code : Host B.World β} {next : β → Scene B → Next B P ρ}
    (h : ∀ x sc', (next x sc').AtOnce Q) : (hosting f site code stack sc next).AtOnce Q :=
  hosting_cases (fun x sc' _ => h x sc') fun _ _ _ => trivial

theorem atOnce_observing {next : Scene B → Next B P ρ}
    (refused : Q ⟨f, calls, site, .give (.error .canceled), stack⟩) (clear : (next sc).AtOnce Q) :
    (observing f calls site stack sc next).AtOnce Q :=
  observing_cases (fun _ => refused) fun _ => clear

end Parts

/-! ## What a step has to do with blocking calls -/

/-- A state that awaits no call, after so many were begun. -/
def Idle (calls : Nat) (s : State B P ρ) : Prop :=
  s.control.awaited = [] ∧ s.calls = calls

/-- What a step can have to do with blocking calls. -/
inductive Blocks (bodies : Bodies B P) (rt : Runtime) (s : State B P ρ) (sc : Scene B) : Prop where
  /-- An operation is carried out by beginning a call. -/
  | begins (p : Program B P s.a s.α) (code : Host B.World (Except Failure s.α)) (sc' : Scene B)
      (reached : s.control = .run p) (blocking : p.isBlocking = true)
      (coded : p.code? s.site.handle = some code)
      (executed : s.executes sc = [⟨s.site.handle, p⟩])
      (next : s.step bodies rt sc =
        .more ⟨s.fiber, s.calls + 1, s.site, .block (rt.turns s.calls) code, s.stack⟩ sc')
  /-- A turn is over. -/
  | waits (turns : Nat) (code : Host B.World (Except Failure s.α))
      (awaited : s.control = .block (turns + 1) code)
      (next : s.step bodies rt sc =
        .waiting ⟨s.fiber, s.calls, s.site, .block turns code, s.stack⟩ sc)
  /-- The call is made, and its result handed on. -/
  | makes (code : Host B.World (Except Failure s.α)) (awaited : s.control = .block 0 code)
      (next : s.step bodies rt sc = calling s.fiber s.calls s.site code s.stack sc)
  | passes (idle : s.control.awaited = []) (executed : s.begins sc = [])
      (next : (s.step bodies rt sc).AtOnce (Idle s.calls))

section Step

variable {a : Algebra} {α β : Type}

theorem begins_of_inline {f : Fiber} {calls : Nat} {site : Site B a} {p : Program B P a α}
    {stack : Stack B P a α ρ} {sc : Scene B} (inline : p.isBlocking = false) :
    begins (⟨f, calls, site, .run p, stack⟩ : State B P ρ) sc = [] := by
  simp only [begins, executes]
  split
  · simp [Executed.blockingCode?, inline]
  · rfl

theorem resume_atOnce (f : Fiber) (calls : Nat) (site : Site B a) (frame : Frame B P a α β)
    (r : Except Interrupted α) (rest : Stack B P a β ρ) (sc : Scene B) :
    (resume f calls site frame r rest sc).AtOnce (Idle calls) := by
  cases frame with
  | map g =>
    cases r with
    | ok x => exact atOnce_hosting fun _ _ => ⟨rfl, rfl⟩
    | error i => exact ⟨rfl, rfl⟩
  | bind k => cases r <;> exact ⟨rfl, rfl⟩
  | region level => exact atOnce_observing ⟨rfl, rfl⟩ ⟨rfl, rfl⟩
  | recover | forceR | onCancel | finalizing | unmasked =>
    rcases r with (_ | _) | _ <;> exact ⟨rfl, rfl⟩

variable (bodies : Bodies B P) (rt : Runtime)

/-- A program that is no blocking call begins none. -/
theorem run_atOnce (f : Fiber) (calls : Nat) (site : Site B a) {p : Program B P a α}
    (stack : Stack B P a α ρ) (sc : Scene B) (inline : p.isBlocking = false) :
    (run bodies rt f calls site p stack sc).AtOnce (Idle calls) := by
  cases p with
  | op o => cases inline
  | raw code => cases inline
  | suspend hint code =>
    refine atOnce_observing ⟨rfl, rfl⟩ ?_
    simp only [show hint.isBlocking = false from inline, Bool.false_eq_true, if_false]
    exact atOnce_hosting fun _ _ => ⟨rfl, rfl⟩
  | pure | call | map | bind => exact ⟨rfl, rfl⟩
  | build code k => exact atOnce_hosting fun _ _ => ⟨rfl, rfl⟩
  | delay | monotonic | realtime =>
    exact atOnce_observing ⟨rfl, rfl⟩ (atOnce_hosting fun _ _ => ⟨rfl, rfl⟩)
  | canceled => exact atOnce_observing ⟨rfl, rfl⟩ (atOnce_observing ⟨rfl, rfl⟩ ⟨rfl, rfl⟩)
  | poll token p =>
    refine atOnce_observing ⟨rfl, rfl⟩ ?_
    simp only
    split
    · exact atOnce_observing ⟨rfl, rfl⟩ ⟨rfl, rfl⟩
    · exact ⟨rfl, rfl⟩
  | raise | embed | handleError | forceR | onCancel | uncancelable =>
    exact atOnce_observing ⟨rfl, rfl⟩ ⟨rfl, rfl⟩

/-- A blocking call is begun where it is reached, unless it is refused.  How long it has to wait is
all that depends on the runtime. -/
theorem run_of_blocking (f : Fiber) (calls : Nat) (site : Site B a) {p : Program B P a α}
    (stack : Stack B P a α ρ) {sc : Scene B} (blocking : p.isBlocking = true)
    (clear : sc.fibers.isCanceled f = false) :
    ∃ code sc', p.code? site.handle = some code ∧ ∀ rt,
      run bodies rt f calls site p stack sc =
        .more ⟨f, calls + 1, site, .block (rt.turns calls) code, stack⟩ sc' := by
  cases p with
  | op o => exact ⟨_, _, rfl, fun rt => observing_of_clear clear _⟩
  | raw code => exact ⟨_, _, rfl, fun rt => observing_of_clear clear _⟩
  | suspend hint code =>
    have begun (rt : Runtime) : run bodies rt f calls site (.suspend hint code) stack sc = _ :=
      observing_of_clear clear _
    simp only [if_pos (show hint.isBlocking = true from blocking)] at begun
    exact ⟨_, _, rfl, begun⟩
  | _ => cases blocking

/-- Every step begins a call, waits for one, makes one or passes by. -/
theorem blocks_step (s : State B P ρ) (sc : Scene B) : Blocks bodies rt s sc := by
  obtain ⟨f, calls, site, control, stack⟩ := s
  cases control with
  | run p =>
    cases blocking : p.isBlocking with
    | false =>
      exact .passes rfl (begins_of_inline blocking)
        (run_atOnce bodies rt f calls site stack sc blocking)
    | true =>
      have leaf : p.isLeaf = true := Program.isLeaf_of_isBlocking blocking
      cases canceled : sc.fibers.isCanceled f with
      | false =>
        obtain ⟨code, sc', coded, next⟩ :=
          run_of_blocking bodies f calls site stack blocking canceled
        exact .begins p code sc' rfl blocking coded (executes_of_clear leaf canceled) (next rt)
      | true =>
        -- a call that is refused is not begun
        have none : begins (⟨f, calls, site, .run p, stack⟩ : State B P ρ) sc = [] := by
          rw [begins, executes_of_canceled canceled]
          rfl
        refine .passes rfl none ?_
        show (run bodies rt f calls site p stack sc).AtOnce (Idle calls)
        rw [run_of_canceled (Program.isOperation_of_isLeaf leaf) canceled]
        exact ⟨rfl, rfl⟩
  | give r =>
    cases stack with
    | nil => exact .passes rfl rfl trivial
    | cons frame rest => exact .passes rfl rfl (resume_atOnce f calls site frame r rest sc)
    | embedded outside rest => exact .passes rfl rfl ⟨rfl, rfl⟩
  | block turns code =>
    cases turns with
    | zero => exact .makes code rfl rfl
    | succ turns => exact .waits turns code rfl rfl

end Step

end State

/-! ## Accounts -/

/-- The code that is awaited after a step. -/
def Next.awaited : Next B P ρ → List (Code B)
  | .more s _ => s.control.awaited
  | .waiting s _ => s.control.awaited
  | .ended _ _ => []
  | .panicked _ _ => []

/-- How many turns a call has to wait still after a step. -/
def Next.delay : Next B P ρ → Nat
  | .more s _ => s.control.delay
  | .waiting s _ => s.control.delay
  | .ended _ _ => 0
  | .panicked _ _ => 0

/-- How often a step leaves off until the next turn. -/
def Next.lapse : Next B P ρ → Nat
  | .waiting _ _ => 1
  | _ => 0

theorem Next.awaited_of_atOnce {calls : Nat} {next : Next B P ρ}
    (idle : next.AtOnce (State.Idle calls)) : next.awaited = [] := by
  cases next with
  | more s sc => exact idle.1
  | waiting s sc => exact idle.elim
  | ended r sc => rfl
  | panicked panic sc => rfl

theorem Next.delay_of_atOnce {calls : Nat} {next : Next B P ρ}
    (idle : next.AtOnce (State.Idle calls)) :
    next.lapse = 0 ∧ next.delay = 0 ∧ ∀ s sc, next.GoesTo s sc → s.calls = calls := by
  cases next with
  | more s sc =>
    refine ⟨rfl, State.delay_of_idle idle.1, ?_⟩
    rintro _ _ (⟨⟨⟩⟩ | ⟨⟨⟩⟩)
    exact idle.2
  | waiting s sc => exact idle.elim
  | ended r sc => exact ⟨rfl, rfl, fun _ _ goes => goes.elim nofun nofun⟩
  | panicked panic sc => exact ⟨rfl, rfl, fun _ _ goes => goes.elim nofun nofun⟩

namespace State

variable {bodies : Bodies B P} {rt : Runtime} {s : State B P ρ} {sc : Scene B}

/-- Code that is called leaves nothing to await. -/
theorem calling_atOnce {a : Algebra} {α : Type} (f : Fiber) (calls : Nat) (site : Site B a)
    (code : Host B.World (Except Failure α)) (stack : Stack B P a α ρ) (sc : Scene B) :
    (calling f calls site code stack sc).AtOnce (Idle calls) :=
  atOnce_hosting fun _ _ => ⟨rfl, rfl⟩

theorem makes_of_idle (idle : s.control.awaited = []) : s.makes sc = [] := by
  obtain ⟨f, calls, site, control, stack⟩ := s
  cases control with
  | block turns code => cases idle
  | _ => rfl

theorem begins_of_block {turns : Nat} {code : Host B.World (Except Failure s.α)}
    (awaited : s.control = .block turns code) : s.begins sc = [] := by
  rw [begins, executes, awaited]
  rfl

/-- What was awaited or is begun is made or awaited afterwards. -/
theorem calls_of_step (bodies : Bodies B P) (rt : Runtime) (s : State B P ρ) (sc : Scene B) :
    s.control.awaited ++ s.begins sc =
      (s.makes sc).map Call.code ++ (s.step bodies rt sc).awaited := by
  cases blocks_step bodies rt s sc with
  | begins p code sc' reached blocking coded executed next =>
    rw [next, begins, executed, makes, reached]
    simp [Executed.blockingCode?, blocking, coded, Next.awaited, Control.awaited]
  | waits turns code awaited next =>
    rw [next, begins_of_block awaited, makes, awaited]
    rfl
  | makes code awaited next =>
    rw [next, Next.awaited_of_atOnce (calling_atOnce ..), begins_of_block awaited, makes, awaited]
    rfl
  | passes idle executed next =>
    rw [idle, executed, Next.awaited_of_atOnce next, makes_of_idle idle]
    rfl

/-- The turns that a call that was awaited or is begun has to wait are over or to be waited
afterwards, and the state counts the calls that are begun. -/
theorem delay_of_step (bodies : Bodies B P) (rt : Runtime) (s : State B P ρ) (sc : Scene B) :
    (s.step bodies rt sc).lapse + (s.step bodies rt sc).delay + rt.waits s.calls =
      s.control.delay + rt.waits (s.calls + (s.begins sc).length) ∧
    ∀ s' sc', (s.step bodies rt sc).GoesTo s' sc' →
      s'.calls = s.calls + (s.begins sc).length := by
  cases blocks_step bodies rt s sc with
  | begins p code sc' reached blocking coded executed next =>
    have one : (s.begins sc).length = 1 := by
      rw [begins, executed]
      simp [Executed.blockingCode?, blocking, coded]
    rw [next, one, reached]
    refine ⟨?_, ?_⟩
    · simp only [Next.lapse, Next.delay, Control.delay, Runtime.waits]
      omega
    · rintro _ _ (⟨⟨⟩⟩ | ⟨⟨⟩⟩)
      rfl
  | waits turns code awaited next =>
    rw [next, begins_of_block awaited, awaited]
    refine ⟨?_, ?_⟩
    · simp only [Next.lapse, Next.delay, Control.delay, List.length_nil, Nat.add_zero]
      omega
    · rintro _ _ (⟨⟨⟩⟩ | ⟨⟨⟩⟩)
      rfl
  | makes code awaited next =>
    obtain ⟨lapse, delay, calls⟩ := Next.delay_of_atOnce
      (next ▸ calling_atOnce s.fiber s.calls s.site code s.stack sc)
    rw [lapse, delay, begins_of_block awaited, awaited]
    exact ⟨rfl, calls⟩
  | passes idle executed next =>
    obtain ⟨lapse, delay, calls⟩ := Next.delay_of_atOnce next
    rw [lapse, delay, executed, delay_of_idle idle]
    exact ⟨rfl, calls⟩

end State
end Cancelable
