import Cancelable.Proofs.Blocking

/-!
# Chronicles

What a step does that is worth telling: it begins an operation, makes a blocking call, gives a
failure to a handler, takes the result of a finalizer, or finds a cancellation.  A note says which
of these it was and which programs were open then.  A program is open from where it is embedded in
another to where its result is handed on, and the stack shows which are.

Nothing in a note is read off the events.  What is to be reported of a step is told by its notes
alone, and it is compared with what the step does to the events.

Main statement: the events that a step reports are those that its notes tell of
(`State.events_step`).
-/

namespace Cancelable

universe u

variable {B : Backend} {P : Procedures} {ρ : Type}

/-! ## Open programs -/

/-- The algebras of the programs that are open, innermost first: the one that was started is at the
bottom of the stack, and each of the others has an end of its own on it. -/
def Stack.enclosing : {a : Algebra} → {α : Type} → Stack B P a α ρ → List Algebra
  | a, _, .nil => [a]
  | _, _, .cons _ rest => rest.enclosing
  | b, _, .embedded _ rest => b :: rest.enclosing

/-- The sites on a stack are those of its programs: each lies inside the one below it, and the last
one is that of a program of the algebra `a₀`, which lies inside no other. -/
def Stack.Houses (a₀ : Algebra) : {a : Algebra} → {α : Type} → Site B a → Stack B P a α ρ → Prop
  | a, _, site, .nil => a = a₀ ∧ site.around = []
  | _, _, site, .cons _ rest => rest.Houses a₀ site
  | _, _, site, .embedded outside rest => site.around = outside.spans ∧ rest.Houses a₀ outside

/-- A point of a run of a program of the algebra `a₀`. -/
def State.Housed (a₀ : Algebra) (s : State B P ρ) : Prop :=
  s.stack.Houses a₀ s.site

section Houses

variable {a₀ a : Algebra} {α : Type} {site : Site B a} {stack : Stack B P a α ρ}

/-- The programs that a site names are those that are open. -/
theorem Stack.Houses.spans_eq (h : stack.Houses a₀ site) : site.spans = stack.enclosing := by
  induction stack with
  | @nil a ρ =>
    have outermost : site.around = [] := h.2
    rw [Site.spans, outermost]
    rfl
  | cons frame rest ih => exact ih h
  | @embedded a b α ρ outside rest ih =>
    obtain ⟨around, below⟩ := h
    rw [Site.spans, around, ih below]
    rfl

/-- The outermost of them is the one that was started. -/
theorem Stack.Houses.enclosing_eq (h : stack.Houses a₀ site) :
    ∃ embeds, stack.enclosing = embeds ++ [a₀] := by
  induction stack with
  | @nil a ρ =>
    obtain ⟨rfl, -⟩ := h
    exact ⟨[], rfl⟩
  | cons frame rest ih => exact ih h
  | @embedded a b α ρ outside rest ih =>
    obtain ⟨embeds, below⟩ := ih h.2
    exact ⟨b :: embeds, congrArg (List.cons b) below⟩

theorem State.housed_start (f : Fiber) (handle : B.Handle a) (p : Program B P a ρ) (fs : Fibers) :
    (State.start f handle p fs).Housed a :=
  ⟨rfl, rfl⟩

theorem Moves.housed {s s' : State B P ρ} {m n : Nat} (move : Moves s m s' n)
    (h : s.Housed a₀) : s'.Housed a₀ := by
  cases move with
  | embed => exact ⟨rfl, h⟩
  | unembed => exact h.2
  | _ => exact h

end Houses

/-! ## Notes -/

/-- What a step does that is worth telling. -/
inductive Deed (B : Backend) (P : Procedures) : Type 1 where
  | begins (e : Executed B P)
  | calls (call : Call B)
  /-- A handler is given a failure. -/
  | handles (a : Algebra) (failure : Failure)
  /-- A finalizer has come to its result. -/
  | cleansUp (result : Except Interrupted Unit)
  | finds

/-- What a step does, and the algebras of the programs that are open then, innermost first. -/
structure Note (B : Backend) (P : Procedures) : Type 1 where
  deed : Deed B P
  within : List Algebra

/-- What is worth telling of a frame that takes a result. -/
def Frame.deed? {a : Algebra} {α β : Type} :
    Frame B P a α β → Except Interrupted α → Option (Deed B P)
  | .recover _, .error (.errored failure) => some (.handles a failure)
  | .finalizing _, result => some (.cleansUp result)
  | _, _ => none

namespace State

/-- What is worth telling of the frame that takes a result in the next step, if one does. -/
def receives : State B P ρ → List (Deed B P)
  | ⟨_, _, _, .give r, .cons frame _⟩ => (frame.deed? r).toList
  | _ => []

def deeds (s : State B P ρ) (sc : Scene B) : List (Deed B P) :=
  (s.executes sc).map .begins ++ (s.makes sc).map .calls ++ s.receives ++
    if s.finds sc then [.finds] else []

/-- What the next step does. -/
def notes (s : State B P ρ) (sc : Scene B) : List (Note B P) :=
  (s.deeds sc).map (⟨·, s.stack.enclosing⟩)

end State

/-- What can be read off the notes of the next step. -/
theorem State.filterMap_notes {γ : Type u} (s : State B P ρ) (sc : Scene B)
    (read : Note B P → Option γ) :
    (s.notes sc).filterMap read =
      (s.executes sc).filterMap (fun e => read ⟨.begins e, s.stack.enclosing⟩) ++
        (s.makes sc).filterMap (fun call => read ⟨.calls call, s.stack.enclosing⟩) ++
        s.receives.filterMap (fun d => read ⟨d, s.stack.enclosing⟩) ++
        if s.finds sc then (read ⟨.finds, s.stack.enclosing⟩).toList else [] := by
  have found : (if s.finds sc then [Deed.finds] else []).filterMap
      (fun d => read ⟨d, s.stack.enclosing⟩) =
        if s.finds sc then (read ⟨.finds, s.stack.enclosing⟩).toList else [] := by
    cases s.finds sc with
    | true => cases h : read ⟨.finds, s.stack.enclosing⟩ <;> simp [h]
    | false => rfl
  rw [notes, deeds, List.filterMap_map, List.filterMap_append, List.filterMap_append,
    List.filterMap_append, List.filterMap_map, List.filterMap_map]
  exact congrArg _ found

/-- What is reported of an operation that is begun: only one on a handle is. -/
def Program.happening? {a : Algebra} {α : Type} : Program B P a α → Option Happening
  | .op o => some (.primitiveCall a o)
  | _ => none

/-- What is reported of a deed.  Of finalizers those that fail are reported. -/
def Deed.happening? : Deed B P → Option Happening
  | .begins e => e.operation.happening?
  | .calls _ => none
  | .handles a failure => some (.recovering a failure)
  | .cleansUp (.error (.errored failure)) => some (.finalizerFailed failure)
  | .cleansUp _ => none
  | .finds => some .cancellationObserved

/-- The event that a note tells of. -/
def Note.event? (n : Note B P) : Option Event :=
  n.deed.happening?.map (⟨·, n.within⟩)

/-! ## What is reported -/

/-- Giving up programs reports nothing. -/
theorem Stack.events_abandon {a : Algebra} {α : Type} (f : Fiber) (site : Site B a)
    (stack : Stack B P a α ρ) (sc : Scene B) :
    (stack.abandon f site sc).events = sc.events := by
  induction stack generalizing sc with
  | nil => rfl
  | cons frame rest ih => exact ih site sc
  | embedded outside rest ih => exact ih outside (sc.setMask f site.entry)

theorem Scene.events_of_host {α : Type} {sc sc' : Scene B} {code : Host B.World α}
    {exit : Except Panic α} (h : sc.host code = (exit, sc')) : sc'.events = sc.events := by
  cases h
  rfl

namespace State

/-- The events that the notes of the next step tell of. -/
def reports (s : State B P ρ) (sc : Scene B) : List Event :=
  (s.notes sc).filterMap Note.event?

/-- Making a call is reported by nothing: where it was begun, its operation was reported. -/
theorem reports_eq (s : State B P ρ) (sc : Scene B) :
    s.reports sc =
      ((s.executes sc).filterMap (fun e => e.operation.happening?) ++
        s.receives.filterMap Deed.happening? ++
          if s.finds sc then [Happening.cancellationObserved] else []).map
        (⟨·, s.stack.enclosing⟩) := by
  have calls : (s.makes sc).filterMap
      (fun call => Note.event? (P := P) ⟨.calls call, s.stack.enclosing⟩) = [] := by
    simp [Note.event?, Deed.happening?]
  rw [reports, filterMap_notes, calls, List.map_append, List.map_append, List.map_filterMap,
    List.map_filterMap, List.append_nil]
  cases s.finds sc <;> rfl

variable {a : Algebra} {α β : Type} {f : Fiber} {calls : Nat} {site : Site B a}
  {stack : Stack B P a α ρ} {sc : Scene B}

theorem events_hosting {γ : Type} {code : Host B.World γ} {next : γ → Scene B → Next B P ρ}
    (h : ∀ x sc', sc'.events = sc.events → (next x sc').scene.events = sc.events) :
    (hosting f site code stack sc next).scene.events = sc.events := by
  refine hosting_cases (M := fun n => n.scene.events = sc.events) ?_ ?_
  · exact fun x sc' host => h x sc' (Scene.events_of_host host)
  · intro panic sc' host
    calc
      (stack.abandon f site sc').events = sc'.events := stack.events_abandon f site sc'
      _ = sc.events := Scene.events_of_host host

section Reports

variable {p : Program B P a α}

/-- A program that is no operation begins nothing, and looks for nothing. -/
theorem reports_of_plain (plain : p.isOperation = false) :
    reports (⟨f, calls, site, .run p, stack⟩ : State B P ρ) sc = [] := by
  have leaf : p.isLeaf = false := by
    refine Bool.eq_false_iff.mpr fun leaf => ?_
    rw [Program.isOperation_of_isLeaf leaf] at plain
    cases plain
  simp [reports_eq, executes, receives, finds, leaf, plain]

/-- An operation that is refused is not begun. -/
theorem reports_of_canceled (operation : p.isOperation = true)
    (canceled : sc.fibers.isCanceled f = true) :
    reports (⟨f, calls, site, .run p, stack⟩ : State B P ρ) sc =
      [⟨.cancellationObserved, stack.enclosing⟩] := by
  simp [reports_eq, executes, receives, finds, operation, canceled]

/-- Otherwise it is reported if it is one on a handle, and so is what it finds itself. -/
theorem reports_of_clear (clear : sc.fibers.isCanceled f = false) :
    reports (⟨f, calls, site, .run p, stack⟩ : State B P ρ) sc =
      (p.happening?.toList ++
        if p.findsAgain sc.fibers f then [Happening.cancellationObserved] else []).map
          (⟨·, stack.enclosing⟩) := by
  have looks : finds (⟨f, calls, site, .run p, stack⟩ : State B P ρ) sc =
      p.findsAgain sc.fibers f := by
    cases again : p.findsAgain sc.fibers f with
    | true => exact finds_of_findsAgain (Program.isOperation_of_findsAgain again) again
    | false => exact finds_of_clear clear again
  have begun : (executes (⟨f, calls, site, .run p, stack⟩ : State B P ρ) sc).filterMap
      (fun e => e.operation.happening?) = p.happening?.toList := by
    cases leaf : p.isLeaf with
    | true =>
      rw [executes_of_clear leaf clear]
      cases p <;> rfl
    | false =>
      have other : p.happening? = none := by
        cases p with
        | op o => cases leaf
        | _ => rfl
      simp [executes, leaf, other]
  rw [reports_eq, begun, looks]
  simp [receives]

end Reports

/-- A look reports what it finds, and then what follows it reports. -/
theorem events_observing {next : Scene B → Next B P ρ} {reported : List Event}
    (refused : sc.fibers.isCanceled f = true →
      reported = ⟨.cancellationObserved, site.spans⟩ :: sc.events)
    (clear : sc.fibers.isCanceled f = false → (next sc).scene.events = reported) :
    (observing f calls site stack sc next).scene.events = reported :=
  observing_cases (M := fun n => n.scene.events = reported)
    (fun canceled => (refused canceled).symm) clear

/-- A look after which nothing is reported. -/
theorem events_lastLook {next : Scene B → Next B P ρ} {events : List Event}
    (here : sc.events = events) (rest : (next sc).scene.events = events) :
    (observing f calls site stack sc next).scene.events =
      ((if sc.fibers.isCanceled f then [Happening.cancellationObserved] else []).map
        (⟨·, site.spans⟩)).reverse ++ events := by
  refine events_observing (fun canceled => ?_) fun clear => ?_
  · rw [if_pos canceled, here]
    rfl
  · rw [clear]
    exact rest

theorem events_run (bodies : Bodies B P) (rt : Runtime) (f : Fiber) (calls : Nat)
    (site : Site B a) (p : Program B P a α) (stack : Stack B P a α ρ) (sc : Scene B)
    (spans : site.spans = stack.enclosing) :
    (run bodies rt f calls site p stack sc).scene.events =
      (reports ⟨f, calls, site, .run p, stack⟩ sc).reverse ++ sc.events := by
  -- a step that is no operation reports nothing, the others look before they do anything else
  have plain (plain : p.isOperation = false)
      (silent : (run bodies rt f calls site p stack sc).scene.events = sc.events) :
      (run bodies rt f calls site p stack sc).scene.events =
        (reports ⟨f, calls, site, .run p, stack⟩ sc).reverse ++ sc.events := by
    rw [reports_of_plain plain]
    exact silent
  have looking {next : Scene B → Next B P ρ} (operation : p.isOperation = true)
      (clear : sc.fibers.isCanceled f = false → (next sc).scene.events =
        ((p.happening?.toList ++
          if p.findsAgain sc.fibers f then [Happening.cancellationObserved] else []).map
            (⟨·, stack.enclosing⟩)).reverse ++ sc.events) :
      (observing f calls site stack sc next).scene.events =
        (reports ⟨f, calls, site, .run p, stack⟩ sc).reverse ++ sc.events := by
    refine events_observing (fun canceled => ?_) fun notCanceled => ?_
    · rw [reports_of_canceled operation canceled, spans]
      rfl
    · rw [reports_of_clear notCanceled]
      exact clear notCanceled
  have thunk {γ : Type} (code : Host B.World γ) (r : γ → Except Interrupted α) :
      (hosting f site code stack sc fun x sc => yield f calls site (r x) stack sc).scene.events =
        sc.events :=
    events_hosting fun x sc' reported => reported
  cases p with
  | pure x => exact plain rfl rfl
  | build code k => exact plain rfl (events_hosting fun x sc' reported => reported)
  | call procedure => exact plain rfl rfl
  | map p g => exact plain rfl rfl
  | bind p k => exact plain rfl rfl
  | op o =>
    refine looking rfl fun _ => ?_
    rw [spans]
    rfl
  | delay code => exact looking rfl fun _ => thunk code _
  | suspend hint code =>
    refine looking rfl fun _ => ?_
    split
    · rfl
    · exact thunk code _
  | monotonic => exact looking rfl fun _ => thunk B.monotonic _
  | realtime => exact looking rfl fun _ => thunk B.realtime _
  | canceled =>
    refine looking rfl fun _ => ?_
    rw [← spans]
    exact events_lastLook rfl rfl
  | poll token p =>
    refine looking rfl fun _ => ?_
    -- only a token that lowers the mask makes for a second look
    simp only [Program.findsAgain]
    split
    · next own =>
      simp only [own, decide_true, Bool.true_and]
      rw [← spans]
      exact events_lastLook rfl rfl
    · next stale => simp [stale, goOn, Next.scene, Program.happening?]
  | _ => exact looking rfl fun _ => rfl

theorem events_resume (f : Fiber) (calls : Nat) (site : Site B a) (frame : Frame B P a α β)
    (r : Except Interrupted α) (rest : Stack B P a β ρ) (sc : Scene B)
    (spans : site.spans = rest.enclosing) :
    (resume f calls site frame r rest sc).scene.events =
      (reports ⟨f, calls, site, .give r, .cons frame rest⟩ sc).reverse ++ sc.events := by
  have told : reports ⟨f, calls, site, .give r, .cons frame rest⟩ sc =
      (((frame.deed? r).toList.filterMap Deed.happening?) ++
        if finds ⟨f, calls, site, .give r, .cons frame rest⟩ sc then
          [Happening.cancellationObserved] else []).map (⟨·, rest.enclosing⟩) := by
    rw [reports_eq]
    rfl
  rw [told]
  cases frame with
  | map g =>
    cases r with
    | ok x => exact events_hosting fun y sc' reported => reported
    | error i => rfl
  | bind k => cases r <;> rfl
  | recover handler =>
    rcases r with (failure | _) | x
    · rw [← spans]
      rfl
    · rfl
    · rfl
  | finalizing level =>
    rcases r with (failure | _) | x
    · rw [← spans]
      rfl
    · rfl
    · rfl
  | region level =>
    -- the mask is set back first, so this look may find what no look inside the region has found
    rw [← spans]
    exact events_lastLook rfl rfl
  | unmasked level => rfl
  | _ => rcases r with (failure | _) | x <;> rfl

/-- The events that a step reports are those that its notes tell of. -/
theorem events_step (bodies : Bodies B P) (rt : Runtime) {s : State B P ρ} (sc : Scene B)
    {a₀ : Algebra} (housed : s.Housed a₀) :
    (s.step bodies rt sc).scene.events = (s.reports sc).reverse ++ sc.events := by
  obtain ⟨f, calls, site, control, stack⟩ := s
  have spans : site.spans = stack.enclosing := housed.spans_eq
  cases control with
  | run p => exact events_run bodies rt f calls site p stack sc spans
  | give r =>
    cases stack with
    | nil => rfl
    | cons frame rest => exact events_resume f calls site frame r rest sc spans
    | embedded outside rest => rfl
  | block turns code =>
    cases turns with
    | zero => exact events_hosting fun x sc' reported => reported
    | succ turns => rfl

end State
end Cancelable
