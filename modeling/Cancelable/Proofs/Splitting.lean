import Cancelable.Proofs.Ends

/-!
# What the machine does is what programs mean

Whatever the machine does after it was handed a program falls into two parts: first the program is
carried out as it means, and then the stack below it makes something of its end.  The proof is by
induction on the number of steps that are left, since a frame or a procedure may bring up a program
that is no part of the one it started with.

Main statement: what ends in a number of steps splits in this way (`State.EndsWithin.splits`).
-/

namespace Cancelable

variable {B : Backend} {P : Procedures} {ρ : Type}

namespace State

/-! ## Ends within a number of steps -/

section Within

variable (bodies : Bodies B P) (rt : Runtime) {a : Algebra} {α : Type} (n : Nat) (f : Fiber)

/-- The machine ends so from here in less than `n` steps, for some number of blocking calls that it
has begun. -/
def EndsWithin (site : Site B a) (control : Control B P a α) (stack : Stack B P a α ρ)
    (sc : Scene B) (ops : List (Executed B P)) (e : Exit ρ) (sc' : Scene B) : Prop :=
  ∃ calls, ∃ k < n, (⟨f, calls, site, control, stack⟩ : State B P ρ).Ends bodies rt k sc ops e sc'

/-- The machine ends so in less than `n` steps after the program above the stack has ended with
`e₁`. -/
def SettlesWithin (site : Site B a) (stack : Stack B P a α ρ) (e₁ : Exit α) (sc : Scene B)
    (ops : List (Executed B P)) (e : Exit ρ) (sc' : Scene B) : Prop :=
  match e₁ with
  | .gives r => EndsWithin @bodies rt n f site (.give r) stack sc ops e sc'
  | .breaks panic => ops = [] ∧ e = .breaks panic ∧ sc' = stack.abandon f site sc

/-- What the machine does from here is what the program means, and then what the stack makes of
it. -/
def Splits (site : Site B a) (p : Program B P a α) (stack : Stack B P a α ρ) (sc : Scene B)
    (ops : List (Executed B P)) (e : Exit ρ) (sc' : Scene B) : Prop :=
  ∃ ops₁ ops₂ e₁ sc₁, ops = ops₁ ++ ops₂ ∧
    Means @bodies f site.around site.handle p sc ops₁ e₁ sc₁ ∧
    SettlesWithin @bodies rt n f site stack e₁ sc₁ ops₂ e sc'

end Within

variable {bodies : Bodies B P} {rt : Runtime} {a b : Algebra} {α β γ : Type} {m n : Nat} {f : Fiber}
  {site : Site B a} {site' : Site B b} {control : Control B P a α} {control' : Control B P b β}
  {stack : Stack B P a α ρ} {stack' : Stack B P b β ρ} {sc sc₁ sc' : Scene B}
  {ops : List (Executed B P)} {e : Exit ρ}

theorem EndsWithin.mono (le : m ≤ n)
    (h : EndsWithin bodies rt m f site control stack sc ops e sc') :
    EndsWithin bodies rt n f site control stack sc ops e sc' := by
  rcases h with ⟨calls, k, lt, ends⟩
  exact ⟨calls, k, Nat.lt_of_lt_of_le lt le, ends⟩

theorem SettlesWithin.mono {e₁ : Exit α} (le : m ≤ n)
    (h : SettlesWithin bodies rt m f site stack e₁ sc ops e sc') :
    SettlesWithin bodies rt n f site stack e₁ sc ops e sc' := by
  cases e₁ with
  | gives r => exact EndsWithin.mono le h
  | breaks panic => exact h

theorem EndsWithin.first (h : EndsWithin bodies rt n f site control stack sc ops e sc') :
    ∃ calls ops' k, k + 1 < n ∧
      ops = (⟨f, calls, site, control, stack⟩ : State B P ρ).executes sc ++ ops' ∧
      ((⟨f, calls, site, control, stack⟩ : State B P ρ).step bodies rt sc).After
        (Ends bodies rt k) ops' e sc' := by
  rcases h with ⟨calls, k, lt, ends⟩
  cases k with
  | zero => exact ends.elim
  | succ k =>
    rcases ends with ⟨ops', eq, rest⟩
    exact ⟨calls, ops', k, lt, eq, rest⟩

/-! ## After a step -/

/-- After a step of running a program that goes on, the machine ends in fewer steps. -/
theorem EndsWithin.after_run {p : Program B P a α}
    (h : EndsWithin bodies rt (n + 1) f site (.run p) stack sc ops e sc')
    (ops₀ : List (Executed B P))
    (carried : ∀ calls, (⟨f, calls, site, .run p, stack⟩ : State B P ρ).executes sc = ops₀)
    (next : ∀ calls, ∃ calls', run bodies rt f calls site p stack sc =
      .more ⟨f, calls', site', control', stack'⟩ sc₁) :
    ∃ ops', ops = ops₀ ++ ops' ∧
      EndsWithin bodies rt n f site' control' stack' sc₁ ops' e sc' := by
  rcases h.first with ⟨calls, ops', k, lt, eq, rest⟩
  rcases next calls with ⟨calls', first⟩
  change (run bodies rt f calls site p stack sc).After _ _ _ _ at rest
  rw [first] at rest
  rw [carried] at eq
  exact ⟨ops', eq, calls', k, Nat.lt_of_succ_lt_succ lt, rest⟩

/-- The same for a step that carries out no operation. -/
theorem EndsWithin.after_quiet {p : Program B P a α}
    (h : EndsWithin bodies rt (n + 1) f site (.run p) stack sc ops e sc')
    (quiet : ∀ calls, (⟨f, calls, site, .run p, stack⟩ : State B P ρ).executes sc = [])
    (next : ∀ calls, run bodies rt f calls site p stack sc =
      .more ⟨f, calls, site', control', stack'⟩ sc₁) :
    EndsWithin bodies rt n f site' control' stack' sc₁ ops e sc' := by
  rcases h.after_run [] quiet fun calls => ⟨calls, next calls⟩ with ⟨ops', rfl, rest⟩
  exact rest

theorem EndsWithin.after_give {r : Except Interrupted α}
    (h : EndsWithin bodies rt n f site (.give r) stack sc ops e sc')
    (next : ∀ calls, give f calls site r stack sc =
      .more ⟨f, calls, site', control', stack'⟩ sc₁) :
    EndsWithin bodies rt n f site' control' stack' sc₁ ops e sc' := by
  rcases h.first with ⟨calls, ops', k, lt, rfl, rest⟩
  change (give f calls site r stack sc).After _ _ _ _ at rest
  rw [next] at rest
  exact ⟨calls, k, Nat.lt_of_succ_lt lt, rest⟩

/-- Below a frame that passes an end on, the frames go on from that end. -/
theorem SettlesWithin.of_cons {frame : Frame B P a α β} {rest : Stack B P a β ρ} {e₁ : Exit α}
    {e₂ : Exit β} (passes : frame.passes e₁ = some e₂)
    (h : SettlesWithin bodies rt n f site (.cons frame rest) e₁ sc ops e sc') :
    SettlesWithin bodies rt n f site rest e₂ sc ops e sc' := by
  cases e₁ with
  | breaks panic =>
    rw [Frame.eq_of_passes_breaks passes]
    exact h
  | gives r =>
    rcases Frame.resume_of_passes passes rest with ⟨r', rfl, next⟩
    exact h.after_give fun calls => next f calls site sc

/-! ## After host code -/

/-- After host code the machine goes on with its value, or has given up. -/
theorem EndsWithin.after_host {rest : Stack B P a β ρ} {code : Host B.World γ}
    {c : γ → Control B P a β}
    (h : EndsWithin bodies rt (n + 1) f site control stack sc ops e sc')
    (ops₀ : List (Executed B P))
    (carried : ∀ calls, (⟨f, calls, site, control, stack⟩ : State B P ρ).executes sc = ops₀)
    (next : ∀ calls, (⟨f, calls, site, control, stack⟩ : State B P ρ).step bodies rt sc =
      hosting f site code rest sc fun x sc => .more ⟨f, calls, site, c x, rest⟩ sc) :
    ∃ ops', ops = ops₀ ++ ops' ∧
      ((∃ x sc₁, sc.host code = (.ok x, sc₁) ∧
          EndsWithin bodies rt n f site (c x) rest sc₁ ops' e sc') ∨
        ∃ p sc₁, sc.host code = (.error p, sc₁) ∧
          ops' = [] ∧ e = .breaks p ∧ sc' = rest.abandon f site sc₁) := by
  rcases h.first with ⟨calls, ops', k, lt, eq, after⟩
  rw [carried] at eq
  refine ⟨ops', eq, ?_⟩
  rw [next, hosting] at after
  cases host : sc.host code with
  | mk exit sc₁ =>
    rw [host] at after
    cases exit with
    | ok x => exact .inl ⟨x, sc₁, rfl, calls, k, Nat.lt_of_succ_lt_succ lt, after⟩
    | error p => exact .inr ⟨p, sc₁, rfl, after⟩

/-- After a thunk the frames below go on from its value, or the machine has given up. -/
theorem EndsWithin.after_thunk {rest : Stack B P a β ρ} {code : Host B.World β}
    (h : EndsWithin bodies rt (n + 1) f site control stack sc ops e sc')
    (ops₀ : List (Executed B P))
    (carried : ∀ calls, (⟨f, calls, site, control, stack⟩ : State B P ρ).executes sc = ops₀)
    (next : ∀ calls, (⟨f, calls, site, control, stack⟩ : State B P ρ).step bodies rt sc =
      hosting f site code rest sc fun x sc => yield f calls site (.ok x) rest sc) :
    ∃ ops' exit sc₁, ops = ops₀ ++ ops' ∧ sc.host code = (exit, sc₁) ∧
      SettlesWithin bodies rt n f site rest (.ofThunk exit) sc₁ ops' e sc' := by
  rcases EndsWithin.after_host (c := fun x => .give (.ok x)) h ops₀ carried next with
    ⟨ops', eq, ⟨x, sc₁, host, after⟩ | ⟨p, sc₁, host, after⟩⟩
  · exact ⟨ops', .ok x, sc₁, eq, host, after⟩
  · exact ⟨ops', .error p, sc₁, eq, host, after⟩

/-- After a call that is made at once the frames below go on from its result, or the machine has
given up. -/
theorem EndsWithin.after_call {code : Host B.World (Except Failure α)}
    (h : EndsWithin bodies rt (n + 1) f site control stack sc ops e sc')
    (ops₀ : List (Executed B P))
    (carried : ∀ calls, (⟨f, calls, site, control, stack⟩ : State B P ρ).executes sc = ops₀)
    (next : ∀ calls, (⟨f, calls, site, control, stack⟩ : State B P ρ).step bodies rt sc =
      calling f calls site code stack sc) :
    ∃ ops' exit sc₁, ops = ops₀ ++ ops' ∧ sc.host code = (exit, sc₁) ∧
      SettlesWithin bodies rt n f site stack (.ofCall exit) sc₁ ops' e sc' := by
  rcases EndsWithin.after_host (c := fun r : Except Failure α => .give (r.mapError .errored)) h ops₀
    carried next with ⟨ops', eq, ⟨x, sc₁, host, after⟩ | ⟨p, sc₁, host, after⟩⟩
  · exact ⟨ops', .ok x, sc₁, eq, host, after⟩
  · exact ⟨ops', .error p, sc₁, eq, host, after⟩

/-- After a blocking call, whatever it had to wait for, it is as after a call made at once. -/
theorem EndsWithin.after_block {code : Host B.World (Except Failure α)} {turns : Nat}
    (h : EndsWithin bodies rt n f site (.block turns code) stack sc ops e sc') :
    ∃ exit sc₁, sc.host code = (exit, sc₁) ∧
      SettlesWithin bodies rt n f site stack (.ofCall exit) sc₁ ops e sc' := by
  induction turns generalizing n with
  | zero =>
    have later := h.mono (Nat.le_succ n)
    rcases later.after_call [] (fun _ => rfl) fun _ => rfl with ⟨ops', exit, sc₁, rfl, host, after⟩
    exact ⟨exit, sc₁, host, after⟩
  | succ turns ih =>
    rcases h.first with ⟨calls, ops', k, lt, rfl, after⟩
    exact ih ⟨calls, k, Nat.lt_of_succ_lt lt, after⟩

theorem EndsWithin.after_blocking {p : Program B P a α} {code : Host B.World (Except Failure α)}
    {sc₀ : Scene B} (h : EndsWithin bodies rt (n + 1) f site (.run p) stack sc ops e sc')
    (leaf : p.isLeaf = true) (clear : sc.fibers.isCanceled f = false)
    (next : ∀ calls, run bodies rt f calls site p stack sc =
      blocking f calls site rt code stack sc₀) :
    ∃ ops' exit sc₁, ops = ⟨site.handle, p⟩ :: ops' ∧ sc₀.host code = (exit, sc₁) ∧
      SettlesWithin bodies rt n f site stack (.ofCall exit) sc₁ ops' e sc' := by
  rcases h.first with ⟨calls, ops', k, lt, eq, rest⟩
  rw [executes_of_clear leaf clear] at eq
  change (run bodies rt f calls site p stack sc).After _ _ _ _ at rest
  rw [next] at rest
  have call : EndsWithin bodies rt n f site (.block (rt.turns calls) code) stack sc₀ ops' e sc' :=
    ⟨calls + 1, k, Nat.lt_of_succ_lt_succ lt, rest⟩
  rcases call.after_block with ⟨exit, sc₁, host, after⟩
  exact ⟨ops', exit, sc₁, eq, host, after⟩

theorem EndsWithin.after_build {code : Host B.World γ} {k : γ → Program B P a α}
    (h : EndsWithin bodies rt (n + 1) f site (.run (.build code k)) stack sc ops e sc') :
    (∃ x sc₁, sc.host code = (.ok x, sc₁) ∧
        EndsWithin bodies rt n f site (.run (k x)) stack sc₁ ops e sc') ∨
      ∃ p sc₁, sc.host code = (.error p, sc₁) ∧
        ops = [] ∧ e = .breaks p ∧ sc' = stack.abandon f site sc₁ := by
  rcases EndsWithin.after_host (c := fun x => .run (k x)) h [] (fun _ => rfl) fun _ => rfl with
    ⟨ops', rfl, after⟩
  exact after

/-! ## Splitting -/

theorem Splits.here {p : Program B P a α} {ops₁ ops₂ : List (Executed B P)} {e₁ : Exit α}
    (means : Means bodies f site.around site.handle p sc ops₁ e₁ sc₁)
    (after : SettlesWithin bodies rt n f site stack e₁ sc₁ ops₂ e sc') :
    Splits bodies rt (n + 1) f site p stack sc (ops₁ ++ ops₂) e sc' :=
  ⟨ops₁, ops₂, e₁, sc₁, rfl, means, after.mono (Nat.le_succ n)⟩

/-- A program splits as the one it goes on with, if that one completes its meaning. -/
theorem Splits.after {p q : Program B P a α} (ops₁ : List (Executed B P))
    (h : Splits bodies rt n f site q stack sc₁ ops e sc')
    (completes : ∀ ops₂ e₁ sc₂, Means bodies f site.around site.handle q sc₁ ops₂ e₁ sc₂ →
      Means bodies f site.around site.handle p sc (ops₁ ++ ops₂) e₁ sc₂) :
    Splits bodies rt (n + 1) f site p stack sc (ops₁ ++ ops) e sc' := by
  rcases h with ⟨ops₂, ops₃, e₁, sc₂, rfl, means, after⟩
  rw [← List.append_assoc]
  exact Splits.here (completes ops₂ e₁ sc₂ means) after

/-- A leaf that finds no cancellation splits, since the next step carries it out. -/
theorem EndsWithin.splits_leaf {p : Program B P a α} (leaf : p.isLeaf = true)
    (clear : sc.fibers.isCanceled f = false)
    (h : EndsWithin bodies rt (n + 1) f site (.run p) stack sc ops e sc') :
    Splits bodies rt (n + 1) f site p stack sc ops e sc' := by
  have carried (calls : Nat) :
      (⟨f, calls, site, .run p, stack⟩ : State B P ρ).executes sc = [⟨site.handle, p⟩] :=
    executes_of_clear leaf clear
  cases p with
  | op o =>
    rcases h.after_blocking rfl clear fun _ => observing_of_clear clear _ with
      ⟨ops', exit, sc₁, rfl, host, after⟩
    exact Splits.here (.op clear host) after
  | raw code =>
    rcases h.after_blocking rfl clear fun _ => observing_of_clear clear _ with
      ⟨ops', exit, sc₁, rfl, host, after⟩
    exact Splits.here (.raw clear host) after
  | delay code =>
    rcases h.after_thunk _ carried fun _ => observing_of_clear clear _ with
      ⟨ops', exit, sc₁, rfl, host, after⟩
    exact Splits.here (.delay clear host) after
  | suspend hint code =>
    cases blocking : hint.isBlocking with
    | true =>
      have begins (calls : Nat) : run bodies rt f calls site (.suspend hint code) stack sc =
          State.blocking f calls site rt code stack sc := by
        refine (observing_of_clear clear _).trans ?_
        simp only [blocking, if_true]
      rcases h.after_blocking rfl clear begins with ⟨ops', exit, sc₁, rfl, host, after⟩
      exact Splits.here (.suspend clear host) after
    | false =>
      have calls (calls : Nat) : run bodies rt f calls site (.suspend hint code) stack sc =
          calling f calls site code stack sc := by
        refine (observing_of_clear clear _).trans ?_
        simp [blocking]
      rcases h.after_call _ carried calls with ⟨ops', exit, sc₁, rfl, host, after⟩
      exact Splits.here (.suspend clear host) after
  | raise failure =>
    rcases h.after_run _ carried fun calls => ⟨calls, observing_of_clear clear _⟩ with
      ⟨ops', rfl, rest⟩
    exact Splits.here (.raise clear) rest
  | monotonic =>
    rcases h.after_thunk _ carried fun _ => observing_of_clear clear _ with
      ⟨ops', exit, sc₁, rfl, host, after⟩
    exact Splits.here (.monotonic clear host) after
  | realtime =>
    rcases h.after_thunk _ carried fun _ => observing_of_clear clear _ with
      ⟨ops', exit, sc₁, rfl, host, after⟩
    exact Splits.here (.realtime clear host) after
  | canceled =>
    -- the request has been made when the second look is taken
    cases found : (sc.fibers.cancel f).isCanceled f with
    | true =>
      rcases h.after_run _ carried fun calls => ⟨calls,
        (observing_of_clear clear _).trans (observing_of_canceled found _)⟩ with ⟨ops', rfl, rest⟩
      exact Splits.here (.canceled clear found) rest
    | false =>
      rcases h.after_run _ carried fun calls => ⟨calls,
        (observing_of_clear clear _).trans (observing_of_clear found _)⟩ with ⟨ops', rfl, rest⟩
      exact Splits.here (.canceled_later clear found) rest
  | _ => cases leaf

/-- All programs that end so in less than `n` steps split. -/
def SplitBelow (bodies : Bodies B P) (rt : Runtime) (n : Nat) (f : Fiber) (e : Exit ρ)
    (sc' : Scene B) : Prop :=
  ∀ ⦃a : Algebra⦄ ⦃α : Type⦄ ⦃site : Site B a⦄ ⦃p : Program B P a α⦄ ⦃stack : Stack B P a α ρ⦄
    ⦃sc : Scene B⦄ ⦃ops : List (Executed B P)⦄,
    EndsWithin @bodies rt n f site (.run p) stack sc ops e sc' →
      Splits @bodies rt n f site p stack sc ops e sc'

section Constructs

variable (below : SplitBelow bodies rt n f e sc')

include below

theorem EndsWithin.splits_map {p : Program B P a β} {g : β → Host B.World α}
    (h : EndsWithin bodies rt (n + 1) f site (.run (.map p g)) stack sc ops e sc') :
    Splits bodies rt (n + 1) f site (.map p g) stack sc ops e sc' := by
  have inner := h.after_quiet (fun _ => rfl) fun _ => rfl
  rcases below inner with ⟨ops₁, ops₂, e₁, sc₁, rfl, means, after⟩
  rcases e₁.valueless_or α with ⟨e₂, stop⟩ | ⟨x, rfl⟩
  · have passes : (Frame.map g : Frame B P a β α).passes e₁ = some e₂ := stop
    exact Splits.here (.map_stop means stop) (after.of_cons passes)
  · have value := EndsWithin.mono (Nat.le_succ n) after
    rcases value.after_thunk [] (fun _ => rfl) fun _ => rfl with ⟨ops₃, exit, sc₂, rfl, host, rest⟩
    exact Splits.here (.map means host) rest

theorem EndsWithin.splits_bind {p : Program B P a β} {k : β → Program B P a α}
    (h : EndsWithin bodies rt (n + 1) f site (.run (.bind p k)) stack sc ops e sc') :
    Splits bodies rt (n + 1) f site (.bind p k) stack sc ops e sc' := by
  have inner := h.after_quiet (fun _ => rfl) fun _ => rfl
  rcases below inner with ⟨ops₁, ops₂, e₁, sc₁, rfl, means, after⟩
  rcases e₁.valueless_or α with ⟨e₂, stop⟩ | ⟨x, rfl⟩
  · have passes : (Frame.bind k).passes e₁ = some e₂ := stop
    exact Splits.here (.bind_stop means stop) (after.of_cons passes)
  · have second := EndsWithin.after_give after fun _ => rfl
    exact (below second).after ops₁ fun _ _ _ rest => .bind means rest

theorem EndsWithin.splits_embed {b : Algebra} {handle : B.Handle b} {p : Program B P b α}
    (clear : sc.fibers.isCanceled f = false)
    (h : EndsWithin bodies rt (n + 1) f site (.run (.embed handle p)) stack sc ops e sc') :
    Splits bodies rt (n + 1) f site (.embed handle p) stack sc ops e sc' := by
  have inner := h.after_quiet (fun _ => rfl) fun _ => observing_of_clear clear _
  rcases below inner with ⟨ops₁, ops₂, e₁, sc₁, rfl, means, after⟩
  refine Splits.here (.embed clear means) ?_
  cases e₁ with
  | gives r =>
    have outside := EndsWithin.after_give after fun _ => rfl
    rw [Scene.setMask_eq_self (means.mask_eq rfl)] at outside
    exact outside
  | breaks panic =>
    rcases after with ⟨rfl, rfl, rfl⟩
    exact ⟨rfl, rfl, Stack.abandon_setMask f site stack sc₁ _⟩

theorem EndsWithin.splits_handleError {p : Program B P a α} {handler : Failure → Program B P a α}
    (clear : sc.fibers.isCanceled f = false)
    (h : EndsWithin bodies rt (n + 1) f site (.run (.handleError p handler)) stack sc ops e sc') :
    Splits bodies rt (n + 1) f site (.handleError p handler) stack sc ops e sc' := by
  have inner := h.after_quiet (fun _ => rfl) fun _ => observing_of_clear clear _
  rcases below inner with ⟨ops₁, ops₂, e₁, sc₁, rfl, means, after⟩
  rcases e₁.isFailure_or with pass | ⟨failure, rfl⟩
  · exact Splits.here (.handleError_pass clear means pass)
      (after.of_cons (by simp [Frame.passes, pass]))
  · -- the frame is gone when the handler is run
    have second := EndsWithin.after_give after fun _ => rfl
    exact (below second).after ops₁ fun _ _ _ rest => .handleError clear means rest

theorem EndsWithin.splits_forceR {p : Program B P a β} {q : Program B P a α}
    (clear : sc.fibers.isCanceled f = false)
    (h : EndsWithin bodies rt (n + 1) f site (.run (.forceR p q)) stack sc ops e sc') :
    Splits bodies rt (n + 1) f site (.forceR p q) stack sc ops e sc' := by
  have inner := h.after_quiet (fun _ => rfl) fun _ => observing_of_clear clear _
  rcases below inner with ⟨ops₁, ops₂, e₁, sc₁, rfl, means, after⟩
  rcases e₁.isFailure_or with pass | ⟨failure, rfl⟩
  · rcases e₁.valueless_or α with ⟨e₂, stop⟩ | ⟨x, rfl⟩
    · exact Splits.here (.forceR_stop clear means stop pass)
        (after.of_cons (by simp [Frame.passes, pass, stop]))
    · have second := EndsWithin.after_give after fun _ => rfl
      exact (below second).after ops₁ fun _ _ _ rest => .forceR clear means rfl rest
  · have second := EndsWithin.after_give after fun _ => rfl
    exact (below second).after ops₁ fun _ _ _ rest => .forceR clear means rfl rest

theorem EndsWithin.splits_onCancel {p : Program B P a α} {finalizer : Program B P a Unit}
    (clear : sc.fibers.isCanceled f = false)
    (h : EndsWithin bodies rt (n + 1) f site (.run (.onCancel p finalizer)) stack sc ops e sc') :
    Splits bodies rt (n + 1) f site (.onCancel p finalizer) stack sc ops e sc' := by
  have inner := h.after_quiet (fun _ => rfl) fun _ => observing_of_clear clear _
  rcases below inner with ⟨ops₁, ops₂, e₁, sc₁, rfl, means, after⟩
  rcases e₁.isCanceled_or with pass | rfl
  · exact Splits.here (.onCancel_pass clear means pass)
      (after.of_cons (by simp [Frame.passes, pass]))
  · have started := EndsWithin.after_give after fun _ => rfl
    rcases below started with ⟨ops₃, ops₄, e₂, sc₂, rfl, cleanup, rest⟩
    rw [← List.append_assoc]
    cases e₂ with
    | breaks panic =>
      exact Splits.here (.onCancel_broken clear means cleanup) (SettlesWithin.of_cons rfl rest)
    | gives r =>
      refine Splits.here (.onCancel clear means cleanup) ?_
      rcases r with (failure | _) | x <;> exact EndsWithin.after_give rest fun _ => rfl

theorem EndsWithin.splits_uncancelable {body : Token → Program B P a α}
    (clear : sc.fibers.isCanceled f = false)
    (h : EndsWithin bodies rt (n + 1) f site (.run (.uncancelable body)) stack sc ops e sc') :
    Splits bodies rt (n + 1) f site (.uncancelable body) stack sc ops e sc' := by
  have inner := h.after_quiet (fun _ => rfl) fun _ => observing_of_clear clear _
  rcases below inner with ⟨ops₁, ops₂, e₁, sc₁, rfl, means, after⟩
  cases e₁ with
  | breaks panic =>
    exact Splits.here (.region_broken clear means) (SettlesWithin.of_cons rfl after)
  | gives r =>
    -- the mask is set back before the look at the end of the region
    cases left : (sc₁.fibers.setMask f (sc.fibers.mask f)).isCanceled f with
    | true =>
      have ended := EndsWithin.after_give after fun _ => observing_of_canceled left _
      exact Splits.here (.region_canceled clear means left) ended
    | false =>
      have ended := EndsWithin.after_give after fun _ => observing_of_clear left _
      exact Splits.here (.region clear means left) ended

theorem EndsWithin.splits_poll {token : Token} {p : Program B P a α}
    (clear : sc.fibers.isCanceled f = false)
    (h : EndsWithin bodies rt (n + 1) f site (.run (.poll token p)) stack sc ops e sc') :
    Splits bodies rt (n + 1) f site (.poll token p) stack sc ops e sc' := by
  by_cases own : sc.fibers.mask f = token.depth
  · cases lowered : (sc.fibers.setMask f (sc.fibers.mask f - 1)).isCanceled f with
    | true =>
      have inner := h.after_quiet (fun _ => rfl) fun _ =>
        (run_poll_of_own clear own).trans (observing_of_canceled lowered _)
      have ended := inner.after_give fun _ => rfl
      exact Splits.here (.poll_canceled clear own lowered) ended
    | false =>
      have inner := h.after_quiet (fun _ => rfl) fun _ =>
        (run_poll_of_own clear own).trans (observing_of_clear lowered _)
      rcases below inner with ⟨ops₁, ops₂, e₁, sc₁, rfl, means, after⟩
      cases e₁ with
      | breaks panic =>
        exact Splits.here (.poll_broken clear own lowered means) (SettlesWithin.of_cons rfl after)
      | gives r =>
        have ended := EndsWithin.after_give after fun _ => rfl
        exact Splits.here (.poll clear own lowered means) ended
  · have inner := h.after_quiet (fun _ => rfl) fun _ => run_poll_of_stale clear own
    exact (below inner).after [] fun _ _ _ rest => .poll_inert clear own rest

end Constructs

/-- Whatever the machine does after it was handed a program is what the program means, and then what
the stack makes of it. -/
theorem EndsWithin.splits {p : Program B P a α}
    (h : EndsWithin bodies rt n f site (.run p) stack sc ops e sc') :
    Splits bodies rt n f site p stack sc ops e sc' := by
  -- a program that is run again, by a frame or by a procedure, ends in fewer steps
  induction n generalizing a α site p stack sc ops with
  | zero =>
    rcases h with ⟨calls, k, lt, _⟩
    exact absurd lt (Nat.not_lt_zero k)
  | succ n ih =>
    have below : SplitBelow bodies rt n f e sc' := by
      intro b β site p stack sc ops h
      exact ih h
    by_cases refusal : p.isOperation = true ∧ sc.fibers.isCanceled f = true
    · rcases refusal with ⟨operation, canceled⟩
      have ended := h.after_quiet (fun _ => executes_of_canceled canceled) fun _ =>
        run_of_canceled operation canceled
      exact Splits.here (.refused operation canceled) ended
    have clear (operation : p.isOperation = true) : sc.fibers.isCanceled f = false := by
      cases canceled : sc.fibers.isCanceled f with
      | true => exact absurd ⟨operation, canceled⟩ refusal
      | false => rfl
    cases p with
    | pure x =>
      have ended := h.after_quiet (fun _ => rfl) fun _ => rfl
      exact Splits.here .pure ended
    | build code k =>
      rcases h.after_build with ⟨x, sc₁, host, rest⟩ | ⟨panic, sc₁, host, broken⟩
      · exact (below rest).after [] fun _ _ _ means => .build host means
      · exact ⟨[], ops, .breaks panic, sc₁, rfl, .build_broken host, broken⟩
    | call procedure =>
      have body := h.after_quiet (fun _ => rfl) fun _ => rfl
      exact (below body).after [] fun _ _ _ means => .call means
    | map p g => exact h.splits_map below
    | bind p k => exact h.splits_bind below
    | embed handle p => exact h.splits_embed below (clear rfl)
    | handleError p handler => exact h.splits_handleError below (clear rfl)
    | forceR p q => exact h.splits_forceR below (clear rfl)
    | onCancel p finalizer => exact h.splits_onCancel below (clear rfl)
    | uncancelable body => exact h.splits_uncancelable below (clear rfl)
    | poll token p => exact h.splits_poll below (clear rfl)
    | _ => exact h.splits_leaf rfl (clear rfl)

end State

end Cancelable
