import Cancelable.Machine.Run
import Cancelable.Proofs.Chronicle

/-!
# The trace of a run

A run keeps a chronicle: the notes of its steps, turn after turn.  Between two turns others may do
to the scene what they like, and report what they like, so the trace of a run is what its own turns
add to the events.

The trace says of the run what its chronicle says, no more and no less, and its end is reported
once, outside of all programs.  An operation on a handle is reported where it is begun, and its call
is made later, perhaps in another turn.  But a run does not end while a call is awaited, so when it
has ended the operations that were reported are those whose calls were made.

Main statement: the trace of a run that ends is faithful (`Run.trace_faithful`).
-/

namespace Cancelable

variable {B : Backend} {P : Procedures} {ρ : Type}

/-! ## Calls and their operations -/

/-- The code of the blocking call that a note says was begun. -/
def Note.code? : Note B P → Option (Code B)
  | ⟨.begins e, _⟩ => e.blockingCode?
  | _ => none

/-- The operation that a note says was begun as a blocking call, and the programs open then. -/
def Note.begun? : Note B P → Option (Executed B P × List Algebra)
  | ⟨.begins e, within⟩ => if e.operation.isBlocking then some (e, within) else none
  | _ => none

/-- The blocking call that a note says was made. -/
def Note.call? : Note B P → Option (Call B)
  | ⟨.calls call, _⟩ => some call
  | _ => none

/-- A blocking call that was made, and the operation that it is the call of. -/
structure Performed (B : Backend) (P : Procedures) : Type 1 where
  operation : Executed B P
  within : List Algebra
  call : Call B

/-- The calls that a chronicle tells of.  They are made in the order in which they are begun, so
each belongs to the operation in the same place. -/
def performed (log : List (Note B P)) : List (Performed B P) :=
  ((log.filterMap Note.begun?).zip (log.filterMap Note.call?)).map fun (begun, call) =>
    ⟨begun.1, begun.2, call⟩

/-- Whether an event tells of an operation on a handle. -/
def Event.isPrimitiveCall (e : Event) : Bool :=
  match e.happening with
  | .primitiveCall .. => true
  | _ => false

/-- The event that tells of an operation on a handle whose call was made. -/
def Performed.event? (d : Performed B P) : Option Event :=
  d.operation.operation.happening?.map (⟨·, d.within⟩)

section Performed

variable {log : List (Note B P)}

theorem Executed.blockingCode?_of_isBlocking {e : Executed B P}
    (blocking : e.operation.isBlocking = true) : ∃ code, e.blockingCode? = some code := by
  obtain ⟨handle, p⟩ := e
  cases p with
  | op | raw | suspend => exact ⟨_, if_pos blocking⟩
  | _ => cases blocking

theorem map_begun (log : List (Note B P)) :
    (log.filterMap Note.begun?).map (fun begun => begun.1.blockingCode?) =
      (log.filterMap Note.code?).map some := by
  have same (n : Note B P) : n.begun?.map (fun begun => begun.1.blockingCode?) =
      n.code?.map some := by
    obtain ⟨deed, within⟩ := n
    cases deed with
    | begins e =>
      cases blocking : e.operation.isBlocking with
      | true =>
        obtain ⟨code, coded⟩ := Executed.blockingCode?_of_isBlocking blocking
        simp [Note.begun?, Note.code?, blocking, coded]
      | false => simp [Note.begun?, Note.code?, Executed.blockingCode?, blocking]
    | _ => rfl
  rw [List.map_filterMap, List.map_filterMap]
  exact congrArg (List.filterMap · log) (funext same)

/-- The calls of all blocking operations that were begun were made, in the same order. -/
abbrev AllMade (log : List (Note B P)) : Prop :=
  log.filterMap Note.code? = (log.filterMap Note.call?).map Call.code

theorem AllMade.length_eq (h : AllMade log) :
    (log.filterMap Note.begun?).length = (log.filterMap Note.call?).length := by
  have lengths := congrArg List.length (map_begun log)
  simpa only [List.length_map, h] using lengths

/-- No call is left out, and none is made up. -/
theorem AllMade.map_call (h : AllMade log) :
    (performed log).map Performed.call = log.filterMap Note.call? := by
  rw [performed, List.map_map]
  exact List.map_snd_zip (Nat.le_of_eq h.length_eq.symm)

theorem AllMade.map_operation (h : AllMade log) :
    (performed log).map (fun d => (d.operation, d.within)) = log.filterMap Note.begun? := by
  rw [performed, List.map_map]
  exact List.map_fst_zip (Nat.le_of_eq h.length_eq)

/-- Each call is that of its operation. -/
theorem AllMade.code_eq (h : AllMade log) {d : Performed B P} (member : d ∈ performed log) :
    d.operation.blockingCode? = some d.call.code := by
  have codes : (performed log).map (fun d => d.operation.blockingCode?) =
      (performed log).map (fun d => some d.call.code) := by
    calc
      _ = ((performed log).map fun d => (d.operation, d.within)).map
            (fun begun => begun.1.blockingCode?) := by rw [List.map_map]; rfl
      _ = (log.filterMap Note.code?).map some := by rw [h.map_operation, map_begun]
      _ = (((performed log).map Performed.call).map Call.code).map some := by
            rw [h, h.map_call]
      _ = _ := by rw [List.map_map, List.map_map]; rfl
  exact List.map_inj_left.mp codes d member

/-- What is reported of operations on handles is what was performed. -/
theorem AllMade.filter_isPrimitiveCall (h : AllMade log) :
    (log.filterMap Note.event?).filter Event.isPrimitiveCall =
      (performed log).filterMap Performed.event? := by
  -- every operation on a handle is a blocking one, so it is among those that were begun
  have same (n : Note B P) : n.event?.filter Event.isPrimitiveCall =
      n.begun?.bind fun begun => begun.1.operation.happening?.map (⟨·, begun.2⟩) := by
    obtain ⟨deed, within⟩ := n
    cases deed with
    | begins e =>
      obtain ⟨handle, p⟩ := e
      cases p with
      | suspend hint code => cases blocking : hint.isBlocking <;> simp [Note.event?, Note.begun?,
          Deed.happening?, Program.happening?, Program.isBlocking, blocking]
      | _ => rfl
    | cleansUp result => rcases result with (failure | _) | x <;> rfl
    | _ => rfl
  calc
    _ = log.filterMap fun n => n.event?.filter Event.isPrimitiveCall := List.filter_filterMap
    _ = (log.filterMap Note.begun?).filterMap fun begun =>
          begun.1.operation.happening?.map (⟨·, begun.2⟩) := by
        rw [List.filterMap_filterMap]
        exact congrArg (List.filterMap · log) (funext same)
    _ = _ := by
        rw [← h.map_operation, List.filterMap_map]
        rfl

end Performed

/-! ## Steps -/

/-- A frame begins no operation, and makes no call. -/
theorem State.filterMap_receives {γ : Type 1} (s : State B P ρ) {read : Deed B P → Option γ}
    (handles : ∀ a failure, read (.handles a failure) = none)
    (cleansUp : ∀ r, read (.cleansUp r) = none) : s.receives.filterMap read = [] := by
  obtain ⟨f, calls, site, control, stack⟩ := s
  cases control with
  | give r =>
    cases stack with
    | cons frame rest =>
      cases frame with
      | recover handler => rcases r with (failure | _) | x <;> simp [receives, Frame.deed?, handles]
      | finalizing level => simp [receives, Frame.deed?, cleansUp]
      | _ => rfl
    | _ => rfl
  | _ => rfl

theorem State.codes_of_notes (s : State B P ρ) (sc : Scene B) :
    (s.notes sc).filterMap Note.code? = s.begins sc := by
  rw [filterMap_notes, filterMap_receives]
  · simp [Note.code?, begins]
  · exact fun _ _ => rfl
  · exact fun _ => rfl

theorem State.calls_of_notes (s : State B P ρ) (sc : Scene B) :
    (s.notes sc).filterMap Note.call? = s.makes sc := by
  rw [filterMap_notes, filterMap_receives]
  · simp [Note.call?]
  · exact fun _ _ => rfl
  · exact fun _ => rfl

/-- Among the calls that are awaited at first or begun, those that the chronicle says were made come
first, and those that are awaited still come after them; and the program of the algebra `a₀` is open
around all of it. -/
structure Told (a₀ : Algebra) (awaited : List (Code B)) (log : List (Note B P))
    (awaited' : List (Code B)) : Prop where
  calls : awaited ++ log.filterMap Note.code? = (log.filterMap Note.call?).map Call.code ++ awaited'
  within : ∀ n ∈ log, ∃ embeds, n.within = embeds ++ [a₀]

theorem Told.trans {a₀ : Algebra} {awaited₁ awaited₂ awaited₃ : List (Code B)}
    {log log' : List (Note B P)} (first : Told a₀ awaited₁ log awaited₂)
    (second : Told a₀ awaited₂ log' awaited₃) : Told a₀ awaited₁ (log ++ log') awaited₃ := by
  constructor
  · calc awaited₁ ++ (log ++ log').filterMap Note.code?
      _ = (awaited₁ ++ log.filterMap Note.code?) ++ log'.filterMap Note.code? := by
          rw [List.filterMap_append, List.append_assoc]
      _ = (log.filterMap Note.call?).map Call.code ++ (awaited₂ ++ log'.filterMap Note.code?) := by
          rw [first.calls, List.append_assoc]
      _ = ((log ++ log').filterMap Note.call?).map Call.code ++ awaited₃ := by
          rw [second.calls, List.filterMap_append, List.map_append, List.append_assoc]
  · intro n member
    rcases List.mem_append.mp member with earlier | later
    · exact first.within n earlier
    · exact second.within n later

/-- What the chronicle tells of is what a later scene has more events than an earlier one. -/
def Scene.Adds (log : List (Note B P)) (sc sc' : Scene B) : Prop :=
  sc'.events = (log.filterMap Note.event?).reverse ++ sc.events

theorem Scene.Adds.trans {log log' : List (Note B P)} {sc₁ sc₂ sc₃ : Scene B}
    (first : Scene.Adds log sc₁ sc₂) (second : Scene.Adds log' sc₂ sc₃) :
    Scene.Adds (log ++ log') sc₁ sc₃ := by
  rw [Adds] at first second ⊢
  rw [second, first]
  simp

theorem State.told_step (bodies : Bodies B P) (rt : Runtime) {s : State B P ρ} (sc : Scene B)
    {a₀ : Algebra} (housed : s.Housed a₀) :
    Told a₀ s.control.awaited (s.notes sc) (s.step bodies rt sc).awaited := by
  constructor
  · rw [codes_of_notes, calls_of_notes]
    exact calls_of_step bodies rt s sc
  · intro n member
    obtain ⟨d, -, rfl⟩ := List.mem_map.mp member
    exact housed.enclosing_eq

/-! ## Turns -/

/-- The notes of the steps of a turn. -/
def State.chronicle (bodies : Bodies B P) (rt : Runtime) :
    Nat → State B P ρ → Scene B → List (Note B P)
  | 0, _, _ => []
  | fuel + 1, s, sc =>
    s.notes sc ++
      match s.step bodies rt sc with
      | .more s sc => chronicle bodies rt fuel s sc
      | _ => []

/-- What a chronicle tells of a turn that was begun in the scene `sc`. -/
def Turn.Tells (a₀ : Algebra) (awaited : List (Code B)) (sc : Scene B) (log : List (Note B P)) :
    Turn (State B P ρ) ρ × Scene B → Prop
  | (.pending s, sc') => s.Housed a₀ ∧ Told a₀ awaited log s.control.awaited ∧ sc.Adds log sc'
  | (.ended _, sc') => Told a₀ awaited log [] ∧ sc.Adds log sc'
  | _ => True

theorem Turn.Tells.after {a₀ : Algebra} {awaited awaited' : List (Code B)} {sc sc₁ : Scene B}
    {log log' : List (Note B P)} {t : Turn (State B P ρ) ρ × Scene B}
    (later : Turn.Tells a₀ awaited' sc₁ log' t) (first : Told a₀ awaited log awaited')
    (adds : sc.Adds log sc₁) : Turn.Tells a₀ awaited sc (log ++ log') t := by
  obtain ⟨s | r | panic | _, sc'⟩ := t
  · obtain ⟨housed, second, adds'⟩ := later
    exact ⟨housed, first.trans second, adds.trans adds'⟩
  · obtain ⟨second, adds'⟩ := later
    exact ⟨first.trans second, adds.trans adds'⟩
  · trivial
  · trivial

/-- By induction on the steps of the turn. -/
theorem State.turn_tells (bodies : Bodies B P) (rt : Runtime) (fuel : Nat) {s : State B P ρ}
    (sc : Scene B) {a₀ : Algebra} (housed : s.Housed a₀) :
    Turn.Tells a₀ s.control.awaited sc (s.chronicle bodies rt fuel sc)
      (s.turn bodies rt fuel sc) := by
  induction fuel generalizing s sc with
  | zero => trivial
  | succ fuel ih =>
    have told := s.told_step bodies rt sc housed
    have adds : sc.Adds (s.notes sc) (s.step bodies rt sc).scene :=
      s.events_step bodies rt sc housed
    simp only [turn, chronicle]
    cases next : s.step bodies rt sc with
    | more s' sc' =>
      rw [next] at told adds
      have housed' : s'.Housed a₀ := (moves_of_goesTo (.inl next)).housed housed
      exact (ih sc' housed').after told adds
    | waiting s' sc' =>
      -- the turn stops here, and what is awaited is left to the next one
      rw [next] at told adds
      dsimp only
      rw [List.append_nil]
      exact ⟨(moves_of_goesTo (.inr next)).housed housed, told, adds⟩
    | ended r sc' =>
      rw [next] at told adds
      dsimp only
      rw [List.append_nil]
      exact ⟨told, adds⟩
    | panicked panic sc' => trivial

/-! ## Runs -/

namespace Run

variable {a : Algebra} {m : Machine B P} {r r' r₀ : Run B P a ρ} {sc sc' sc₀ : Scene B}

/-- The notes of the next turn. -/
def chronicle (m : Machine B P) (r : Run B P a ρ) (sc : Scene B) : List (Note B P) :=
  r.state.chronicle m.bodies m.runtime m.bound sc

theorem turn_of_pending (turn : r.turn m sc = (.pending r', sc')) :
    r.state.turn m.bodies m.runtime m.bound sc = (.pending r'.state, sc') := by
  unfold Run.turn at turn
  revert turn
  generalize r.state.turn m.bodies m.runtime m.bound sc = t
  intro turn
  obtain ⟨s | result | panic | _, sc₁⟩ := t <;> cases turn
  rfl

/-- The end of a program is reported after all else. -/
theorem turn_of_ended {result : Except Interrupted ρ} (turn : r.turn m sc = (.ended result, sc')) :
    ∃ sc₁, r.state.turn m.bodies m.runtime m.bound sc = (.ended result, sc₁) ∧
      sc' = sc₁.emit (.ended a (result.map fun _ => ())) [] := by
  unfold Run.turn at turn
  revert turn
  generalize r.state.turn m.bodies m.runtime m.bound sc = t
  intro turn
  obtain ⟨s | result | panic | _, sc₁⟩ := t <;> cases turn
  exact ⟨sc₁, rfl, rfl⟩

/-- The points that a run has reached after some turns, with its chronicle and with its trace: what
it has added to the events.  Before each turn others may have done anything to the scene. -/
inductive Traced (m : Machine B P) (r₀ : Run B P a ρ) (sc₀ : Scene B) :
    List (Note B P) → List Event → Run B P a ρ → Scene B → Prop where
  | begun : Traced m r₀ sc₀ [] [] r₀ sc₀
  | turn {log : List (Note B P)} {trace added : List Event} {r r' : Run B P a ρ}
      {sc sc' : Scene B} (before : Traced m r₀ sc₀ log trace r sc)
      (h : r.turn m sc = (.pending r', sc')) (adds : sc'.events = added.reverse ++ sc.events) :
      Traced m r₀ sc₀ (log ++ r.chronicle m sc) (trace ++ added) r' sc'
  | others {log : List (Note B P)} {trace : List Event} {r : Run B P a ρ} {sc : Scene B}
      (before : Traced m r₀ sc₀ log trace r sc) (sc' : Scene B) : Traced m r₀ sc₀ log trace r sc'

/-- At every point the trace is what the chronicle tells of.  The induction is on the turns. -/
theorem Traced.told {f : Fiber} {handle : B.Handle a} {p : Program B P a ρ}
    {log : List (Note B P)} {trace : List Event}
    (h : Traced m (start f handle p sc₀.fibers) sc₀ log trace r sc) :
    r.state.Housed a ∧ Told a [] log r.state.control.awaited ∧
      trace = log.filterMap Note.event? := by
  induction h with
  | begun => exact ⟨State.housed_start f handle p sc₀.fibers, ⟨rfl, nofun⟩, rfl⟩
  | @turn log trace added r r' sc sc' before h adds ih =>
    obtain ⟨housed, told, trace_eq⟩ := ih
    have tells := State.turn_tells m.bodies m.runtime m.bound sc housed
    rw [turn_of_pending h] at tells
    obtain ⟨housed', told', adds'⟩ := tells
    -- what the turn has added is the same, whether read off the events or off the notes
    have added_eq : added = (r.chronicle m sc).filterMap Note.event? :=
      List.reverse_inj.mp (List.append_cancel_right (adds.symm.trans adds'))
    refine ⟨housed', told.trans told', ?_⟩
    rw [trace_eq, added_eq, List.filterMap_append]
  | others before sc' ih => exact ih

end Run

/-! ## The trace -/

namespace Event

/-- Whether an event tells that a handler is given a failure. -/
def isRecovering (e : Event) : Bool :=
  match e.happening with
  | .recovering .. => true
  | _ => false

/-- Whether an event tells that a finalizer has failed. -/
def isFinalizerFailed (e : Event) : Bool :=
  match e.happening with
  | .finalizerFailed _ => true
  | _ => false

/-- Whether an event tells of the end of a program. -/
def isEnd (e : Event) : Bool :=
  match e.happening with
  | .ended .. => true
  | _ => false

end Event

namespace Note

def isHandling (n : Note B P) : Bool :=
  match n.deed with
  | .handles .. => true
  | _ => false

/-- Whether a finalizer has ended with a failure. -/
def isFailedCleanup (n : Note B P) : Bool :=
  match n.deed with
  | .cleansUp (.error (.errored _)) => true
  | _ => false

/-- What kind of event a note tells of.  None tells of the end of a program. -/
theorem event?_kind (n : Note B P) :
    (n.event?.map Event.isRecovering).getD false = n.isHandling ∧
      (n.event?.map Event.isFinalizerFailed).getD false = n.isFailedCleanup ∧
      n.event?.filter Event.isEnd = none := by
  obtain ⟨deed, within⟩ := n
  cases deed with
  | begins e =>
    obtain ⟨handle, p⟩ := e
    cases p <;> exact ⟨rfl, rfl, rfl⟩
  | cleansUp result => rcases result with (failure | _) | x <;> exact ⟨rfl, rfl, rfl⟩
  | calls | handles | finds => exact ⟨rfl, rfl, rfl⟩

theorem spans_of_event? {n : Note B P} {e : Event} (told : n.event? = some e) :
    e.spans = n.within := by
  obtain ⟨happening, -, rfl⟩ := Option.map_eq_some_iff.mp told
  rfl

end Note

/-- The trace of a run of a program of the algebra `a` that has ended with a result says what its
chronicle says. -/
structure Faithful (a : Algebra) (result : Except Interrupted ρ) (log : List (Note B P))
    (trace : List Event) : Prop where
  /-- The events are those that the notes tell of, in the same order, and after them the end. -/
  trace_eq : trace = log.filterMap Note.event? ++ [⟨.ended a (result.map fun _ => ()), []⟩]
  /-- Each blocking call that was made is that of the operation that was begun for it. -/
  calls : (performed log).map Performed.call = log.filterMap Note.call?
  codes : ∀ d ∈ performed log, d.operation.blockingCode? = some d.call.code
  /-- The operations on handles that are reported are those whose calls were made. -/
  primitiveCalls : trace.filter Event.isPrimitiveCall = (performed log).filterMap Performed.event?
  recoveries : trace.countP Event.isRecovering = log.countP Note.isHandling
  cleanups : trace.countP Event.isFinalizerFailed = log.countP Note.isFailedCleanup
  /-- The only end that is reported is that of the program that was started. -/
  ends : trace.filter Event.isEnd = [⟨.ended a (result.map fun _ => ()), []⟩]
  message : Event.message ⟨.ended a (result.map fun _ => ()), []⟩ =
    match Outcome.ofExcept result with
    | .succeeded _ => "program succeeded"
    | .errored failure => "program failed: " ++ failure.text
    | .canceled => "program canceled"
  /-- All else is reported inside the program that was started and those embedded in it then. -/
  spans : ∀ n ∈ log, ∀ e, n.event? = some e → e.spans = n.within ∧
    ∃ embeds, n.within = embeds ++ [a] ∧
      e.spanNames = ("program:" ++ a.name) :: embeds.reverse.map ("embedded:" ++ ·.name)

theorem Told.faithful {a : Algebra} {log : List (Note B P)} (h : Told a [] log [])
    (result : Except Interrupted ρ) :
    Faithful a result log
      (log.filterMap Note.event? ++ [⟨.ended a (result.map fun _ => ()), []⟩]) := by
  -- nothing was awaited at first, and nothing is at the end
  have made : AllMade log := h.calls.trans (List.append_nil _)
  refine ⟨rfl, made.map_call, fun d => made.code_eq, ?_, ?_, ?_, ?_, ?_, ?_⟩
  · rw [List.filter_append, made.filter_isPrimitiveCall]
    exact List.append_nil _
  · rw [List.countP_append, List.countP_filterMap]
    simp only [(Note.event?_kind _).1]
    rfl
  · rw [List.countP_append, List.countP_filterMap]
    simp only [(Note.event?_kind _).2.1]
    rfl
  · have silent : log.filterMap (fun n => n.event?.filter Event.isEnd) = [] :=
      List.filterMap_eq_nil_iff.mpr fun n _ => (Note.event?_kind n).2.2
    rw [List.filter_append, List.filter_filterMap, silent]
    rfl
  · rcases result with (failure | _) | x <;> rfl
  · intro n member e told
    have spans := Note.spans_of_event? told
    obtain ⟨embeds, within⟩ := h.within n member
    refine ⟨spans, embeds, within, ?_⟩
    rw [Event.spanNames, spans, within, List.reverse_append]
    rfl

namespace Run

variable {a : Algebra} {m : Machine B P} {r : Run B P a ρ} {sc sc' sc₀ : Scene B}

/-- Consider a run that has been given some turns, on any runtime, while others did what they liked.
If the next turn brings its end, what the turn adds to the events makes the trace faithful. -/
theorem trace_faithful {f : Fiber} {handle : B.Handle a} {p : Program B P a ρ}
    {log : List (Note B P)} {trace : List Event} {result : Except Interrupted ρ}
    (traced : Traced m (start f handle p sc₀.fibers) sc₀ log trace r sc)
    (last : r.turn m sc = (.ended result, sc')) :
    ∃ added, sc'.events = added.reverse ++ sc.events ∧
      Faithful a result (log ++ r.chronicle m sc) (trace ++ added) := by
  obtain ⟨housed, told, rfl⟩ := traced.told
  obtain ⟨sc₁, turn, rfl⟩ := turn_of_ended last
  have tells := State.turn_tells m.bodies m.runtime m.bound sc housed
  rw [turn] at tells
  obtain ⟨told', adds⟩ := tells
  have whole := (told.trans told').faithful result
  rw [List.filterMap_append, List.append_assoc] at whole
  refine ⟨_, ?_, whole⟩
  rw [List.reverse_append, Scene.emit, adds]
  rfl

/-- An embedded call, for which the run has to wait a turn, fails, and the failure is recovered
from; then the run is canceled, and its finalizer fails. -/
theorem trace_faithful_in_two_turns :
    let failure : Failure := .message ⟨0, []⟩ "failed"
    let refusing : Backend :=
      ⟨Unit, fun _ => Unit, fun _ _ => Host.pure (.error failure), Host.pure 0, Host.pure 0⟩
    let m : Machine refusing .none := ⟨Bodies.none, .stepped, 20⟩
    let f : Fiber := .ofName "f"
    let sc₀ : Scene refusing := ⟨{}, (), []⟩
    let read : Program refusing .none .copyOut (Option Bytes) := .op (a := .copyOut) .readRow
    let p : Program refusing .none .connection Unit :=
      .onCancel
        (.bind (.handleError (.embed (b := .copyOut) () read) fun _ => .pure none)
          fun _ => .canceled)
        (.raise failure)
    let before : List Event :=
      [⟨.primitiveCall .copyOut CopyOut.Op.readRow, [.copyOut, .connection]⟩]
    ∃ log r sc sc', Traced m (start f () p sc₀.fibers) sc₀ log before r sc ∧
      r.turn m sc = (.ended (.error .canceled), sc') ∧
      ∃ added, sc'.events = added.reverse ++ sc.events ∧
        Faithful .connection (.error .canceled : Except Interrupted Unit)
          (log ++ r.chronicle m sc) (before ++ added) ∧
        added = [⟨.recovering .connection failure, [.connection]⟩,
          ⟨.cancellationObserved, [.connection]⟩, ⟨.finalizerFailed failure, [.connection]⟩,
          ⟨.ended .connection (.error .canceled), []⟩] := by
  intro failure refusing m f sc₀ read p before
  -- the first turn begins the read and waits for it; all else is done in the second
  obtain ⟨r, sc, sc', first, adds, last, told⟩ : ∃ r sc sc',
      (start f (a := .connection) () p sc₀.fibers).turn m sc₀ = (.pending r, sc) ∧
      sc.events = before.reverse ++ sc₀.events ∧ r.turn m sc = (.ended (.error .canceled), sc') ∧
      (r.chronicle m sc).filterMap Note.event? =
        [⟨.recovering .connection failure, [.connection]⟩,
          ⟨.cancellationObserved, [.connection]⟩, ⟨.finalizerFailed failure, [.connection]⟩] :=
    ⟨_, _, _, rfl, rfl, rfl, rfl⟩
  have traced := Traced.begun.turn first adds
  obtain ⟨added, adds', faithful⟩ := trace_faithful traced last
  refine ⟨_, r, sc, sc', traced, last, added, adds', faithful, ?_⟩
  have told₀ : ([] ++ (start f (a := .connection) () p sc₀.fibers).chronicle m sc₀).filterMap
      Note.event? = before := rfl
  have trace_eq := faithful.trace_eq
  rw [List.filterMap_append, told₀, told, List.append_assoc] at trace_eq
  exact List.append_cancel_left trace_eq

end Run
end Cancelable
