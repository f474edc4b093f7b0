import Cancelable.Proofs.Flow

/-!
# Where failures come from

Only leaf operations fail: an operation on a handle, host code that gets the handle, a suspended
thunk, or the operation that raises a failure.  A failure is handed from frame to frame as it is,
across the ends of regions and of embedded programs, until a handler or the end of the run takes it,
and meanwhile nothing is carried out.  So it is the failure that the operation before returned.

A run notes each leaf operation that it begins, and where the code of the operation is called, which
for a blocking call is some turns later.

Main statement: a failure that is handed on, that a handler gets, or that a run ends with is the one
that the last leaf operation returned (`State.failed_last`).
-/

namespace Cancelable

variable {B : Backend} {P : Procedures} {ρ : Type}

/-! ## Leaves that fail -/

/-- The code by which an operation comes to its result, if it may fail. -/
def Program.code? {a : Algebra} {α : Type} (handle : B.Handle a) :
    Program B P a α → Option (Host B.World (Except Failure α))
  | .op o => some (B.invoke handle o)
  | .raw code => some (code handle)
  | .suspend _ code => some code
  | .raise failure => some (Host.pure (.error failure))
  | _ => none

/-- Whether an operation is a blocking call. -/
def Program.isBlocking {a : Algebra} {α : Type} : Program B P a α → Bool
  | .op _ | .raw _ => true
  | .suspend hint _ => hint.isBlocking
  | _ => false

/-- Called in the world `w`, where the fibers are `fs`, an operation returns a failure. -/
def Executed.Returns (e : Executed B P) (fs : Fibers) (w : B.World) (failure : Failure) : Prop :=
  ∃ code, e.operation.code? e.handle = some code ∧ (code fs w).exit = .ok (.error failure)

/-! ## Notes -/

/-- What a run notes of its leaf operations: which it begins, and where it calls the code of the one
begun last. -/
inductive LeafNote (B : Backend) (P : Procedures) : Type 1 where
  | begun (e : Executed B P)
  | called (fs : Fibers) (w : B.World)

/-- The last leaf operation of a log has returned a failure. -/
def FailedLast (log : List (LeafNote B P)) (failure : Failure) : Prop :=
  ∃ earlier e fs w, log = earlier ++ [.begun e, .called fs w] ∧ e.Returns fs w failure

namespace State

/-- What is noted of the next step. -/
def leafNotes (s : State B P ρ) (sc : Scene B) : List (LeafNote B P) :=
  (s.executes sc).map .begun ++
    match s.control with
    | .run p =>
      if p.isLeaf && !sc.fibers.isCanceled s.fiber && !p.isBlocking then
        [.called sc.fibers sc.world]
      else []
    | .block 0 _ => [.called sc.fibers sc.world]
    | _ => []

/-- What the log tells of the state: a failure that is handed on was returned last, and a blocking
call that is waited for was begun last. -/
def Tells (log : List (LeafNote B P)) (s : State B P ρ) : Prop :=
  match s.control with
  | .give (.error (.errored failure)) => FailedLast log failure
  | .block _ code =>
    ∃ (earlier : List (LeafNote B P)) (p : Program B P s.a s.α),
      log = earlier ++ [.begun ⟨s.site.handle, p⟩] ∧ p.code? s.site.handle = some code
  | _ => True

variable {bodies : Bodies B P} {rt : Runtime} {a : Algebra} {α β : Type} {f : Fiber} {calls : Nat}
  {site : Site B a} {stack : Stack B P a α ρ} {sc : Scene B} {log : List (LeafNote B P)}

/-! ## One step -/

/-- What is noted of an operation that is carried out. -/
theorem leafNotes_of_clear {p : Program B P a α} (leaf : p.isLeaf = true)
    (clear : sc.fibers.isCanceled f = false) :
    leafNotes (⟨f, calls, site, .run p, stack⟩ : State B P ρ) sc =
      .begun ⟨site.handle, p⟩ :: if p.isBlocking then [] else [.called sc.fibers sc.world] := by
  cases blocking : p.isBlocking <;> simp [leafNotes, executes, leaf, clear, blocking]

/-- Code that is called, be it at once or after some turns, returns the failure that is handed
on. -/
theorem calling_tells {code : Host B.World (Except Failure α)} {earlier : List (LeafNote B P)}
    {p : Program B P a α} (begun : p.code? site.handle = some code)
    (notes : log = earlier ++ [.begun ⟨site.handle, p⟩, .called sc.fibers sc.world]) :
    (calling f calls site code stack sc).GoesOn fun s' _ => s'.Tells log := by
  refine goesOn_calling fun result sc' host => ?_
  cases result with
  | ok x => exact trivial
  | error failure =>
    have returned : (code sc.fibers sc.world).exit = .ok (.error failure) :=
      congrArg Prod.fst host
    exact ⟨earlier, ⟨site.handle, p⟩, sc.fibers, sc.world, notes, code, begun, returned⟩

theorem run_tells (bodies : Bodies B P) (rt : Runtime) (f : Fiber) (calls : Nat) (site : Site B a)
    (p : Program B P a α) (stack : Stack B P a α ρ) (sc : Scene B) (log : List (LeafNote B P)) :
    (run bodies rt f calls site p stack sc).GoesOn fun s' _ =>
      s'.Tells (log ++ leafNotes ⟨f, calls, site, .run p, stack⟩ sc) := by
  -- a blocking call is begun, and called later
  have begins {code : Host B.World (Except Failure α)} (leaf : p.isLeaf = true)
      (blocking : p.isBlocking = true) (coded : p.code? site.handle = some code)
      (clear : sc.fibers.isCanceled f = false) (calls' turns : Nat) :
      Tells (log ++ leafNotes ⟨f, calls, site, .run p, stack⟩ sc)
        ⟨f, calls', site, .block turns code, stack⟩ := by
    refine ⟨log, p, ?_, coded⟩
    rw [leafNotes_of_clear leaf clear, blocking]
    rfl
  have atOnce (leaf : p.isLeaf = true) (inline : p.isBlocking = false)
      (clear : sc.fibers.isCanceled f = false) :
      log ++ leafNotes ⟨f, calls, site, .run p, stack⟩ sc =
        log ++ [.begun ⟨site.handle, p⟩, .called sc.fibers sc.world] := by
    rw [leafNotes_of_clear leaf clear, inline]
    rfl
  cases p with
  | build code k => exact goesOn_hosting fun x sc' _ => trivial
  | op o => exact goesOn_observing (fun _ => trivial) fun clear => begins rfl rfl rfl clear _ _
  | raw code => exact goesOn_observing (fun _ => trivial) fun clear => begins rfl rfl rfl clear _ _
  | suspend hint code =>
    refine goesOn_observing (fun _ => trivial) fun clear => ?_
    split
    · next blocking => exact begins rfl blocking rfl clear _ _
    · next inline => exact calling_tells rfl (atOnce rfl (Bool.eq_false_iff.mpr inline) clear)
  | raise failure =>
    refine goesOn_observing (fun _ => trivial) fun clear => ?_
    exact ⟨log, ⟨site.handle, .raise failure⟩, sc.fibers, sc.world, atOnce rfl rfl clear, _, rfl,
      rfl⟩
  -- no other operation fails
  | delay | monotonic | realtime =>
    exact goesOn_observing (fun _ => trivial) fun _ => goesOn_hosting fun _ _ _ => trivial
  | canceled =>
    refine goesOn_observing (fun _ => trivial) fun _ => ?_
    exact goesOn_observing (fun _ => trivial) fun _ => trivial
  | poll token p =>
    refine goesOn_observing (fun _ => trivial) fun _ => ?_
    simp only
    split
    · exact goesOn_observing (fun _ => trivial) fun _ => trivial
    · exact trivial
  | embed | handleError | forceR | onCancel | uncancelable =>
    exact goesOn_observing (fun _ => trivial) fun _ => trivial
  | pure | call | map | bind => exact trivial

/-- A frame hands a failure on as it is, or runs a program. -/
theorem resume_tells (f : Fiber) (calls : Nat) (site : Site B a) (frame : Frame B P a α β)
    (r : Except Interrupted α) (rest : Stack B P a β ρ) (sc : Scene B)
    (h : Tells log ⟨f, calls, site, .give r, .cons frame rest⟩) :
    (resume f calls site frame r rest sc).GoesOn fun s' _ => s'.Tells log := by
  rcases r with (failure | _) | x
  · cases frame with
    | region level => exact goesOn_observing (fun _ => trivial) fun _ => h
    | map | bind | onCancel | unmasked => exact h
    | recover | forceR | finalizing => exact trivial
  · cases frame with
    | region level => exact goesOn_observing (fun _ => trivial) fun _ => trivial
    | _ => exact trivial
  · cases frame with
    | map g => exact goesOn_hosting fun _ _ _ => trivial
    | region level => exact goesOn_observing (fun _ => trivial) fun _ => trivial
    | _ => exact trivial

/-- The log goes on telling of the state. -/
theorem Tells.goesTo {s s' : State B P ρ} {sc' : Scene B} (h : s.Tells log)
    (next : (s.step bodies rt sc).GoesTo s' sc') : s'.Tells (log ++ s.leafNotes sc) := by
  obtain ⟨f, calls, site, control, stack⟩ := s
  cases control with
  | run p => exact (run_tells bodies rt f calls site p stack sc log).at next
  | give r =>
    have quiet : log ++ leafNotes ⟨f, calls, site, .give r, stack⟩ sc = log := List.append_nil log
    rw [quiet]
    cases stack with
    | nil => rcases next with next | next <;> cases next
    | cons frame rest => exact (resume_tells f calls site frame r rest sc h).at next
    | embedded outside rest =>
      have handed : (give f calls site r (.embedded outside rest) sc).GoesOn fun s' _ =>
          s'.Tells log := by
        rcases r with (failure | _) | x
        · exact h
        · exact trivial
        · exact trivial
      exact handed.at next
  | block turns code =>
    obtain ⟨earlier, p, begun, coded⟩ := h
    cases turns with
    | zero =>
      have notes : log ++ [.called sc.fibers sc.world] =
          earlier ++ [.begun ⟨site.handle, p⟩, .called sc.fibers sc.world] := by
        rw [begun]
        exact List.append_assoc ..
      have called : (calling f calls site code stack sc).GoesOn fun s' _ =>
          s'.Tells (log ++ [.called sc.fibers sc.world]) := calling_tells coded notes
      exact called.at next
    | succ turns =>
      have waits : Tells log ⟨f, calls, site, .block turns code, stack⟩ :=
        ⟨earlier, p, begun, coded⟩
      rcases next with next | next
      · cases next
      · cases next
        exact (List.append_nil log).symm ▸ waits

/-! ## The run -/

section Run

variable {handle : B.Handle a} {p : Program B P a ρ} {fs : Fibers} {sc₀ : Scene B}
  {s : State B P ρ}

theorem Logs.tells
    (run : Logs bodies rt (fun s sc _ => s.leafNotes sc) (start f handle p fs) sc₀ log s sc) :
    s.Tells log :=
  run.invariant (I := fun log s => s.Tells log) trivial fun next h => h.goesTo next

/-- Consider a run of a program from its start, among others that do what they like.  If it ends
with a failure, this is the very failure that its last leaf operation returned, be it one of an
embedded program.  So is every failure that is handed on, and if the frame that it is handed to
makes it possible to recover, the handler gets that failure.  In particular, an attempt ends with
that failure as its value. -/
theorem failed_last
    (run : Logs bodies rt (fun s sc _ => s.leafNotes sc) (start f handle p fs) sc₀ log s sc) :
    (∀ r sc' failure, s.step bodies rt sc = .ended r sc' → Outcome.ofExcept r = .errored failure →
      FailedLast log failure) ∧
    (∀ failure, s.control = .give (.error (.errored failure)) → FailedLast log failure) ∧
    (∀ (b : Algebra) (β : Type) (g : Fiber) (calls : Nat) (site : Site B b)
        (r : Except Interrupted β) (handler : Failure → Program B P b β) (rest : Stack B P b β ρ)
        (q : Program B P b β) (sc' : Scene B),
      s = ⟨g, calls, site, .give r, .cons (.recover handler) rest⟩ →
        s.step bodies rt sc = .more ⟨g, calls, site, .run q, rest⟩ sc' →
          ∃ failure, r = .error (.errored failure) ∧ q = handler failure ∧
            FailedLast log failure) ∧
    ∀ (b : Algebra) (β : Type) (g : Fiber) (calls : Nat) (site : Site B b) (failure : Failure)
        (rest : Stack B P b (Except Failure β) ρ),
      s = ⟨g, calls, site, .give (.error (.errored failure)),
            .cons (.recover fun failure => .pure (.error failure)) rest⟩ →
        FailedLast log failure ∧
          ∃ s' sc' sc'', s.step bodies rt sc = .more s' sc' ∧
            s'.step bodies rt sc' =
              .more ⟨g, calls, site, .give (.ok (.error failure)), rest⟩ sc'' := by
  have tells : s.Tells log := run.tells
  have handedOn (failure : Failure) (fails : s.control = .give (.error (.errored failure))) :
      FailedLast log failure := by
    rw [Tells, fails] at tells
    exact tells
  refine ⟨?_, handedOn, ?_, ?_⟩
  · intro r sc' failure ended errored
    obtain ⟨b, g, calls, site, rfl, -⟩ := eq_of_ended ended
    have fails : r = .error (.errored failure) := by
      rw [← Outcome.toExcept_ofExcept r, errored]
      rfl
    exact handedOn failure (congrArg Control.give fails)
  · rintro b β g calls site r handler rest q sc' rfl next
    rcases r with (failure | _) | x
    · cases next
      exact ⟨failure, rfl, rfl, handedOn failure rfl⟩
    · cases next
    · cases next
  · rintro b β g calls site failure rest rfl
    exact ⟨handedOn failure rfl, _, _, _, rfl, rfl⟩

end Run

/-- An embedded call fails after another failure has been raised and recovered from.  The handler
gets the failure of the call, which it raises again under another label: the run ends with that. -/
theorem failed_last_when_embedded :
    let f : Fiber := ⟨.numbered 0, .numbered 0⟩
    let failure (n : Nat) : Failure := .message ⟨n, []⟩ "failed"
    let call : Program .notes .none .largeObject Unit :=
      .suspend .blocking (Host.pure (.error (failure 2)))
    let p : Program .notes .none .connection Unit :=
      .handleError
        (.bind (.raise (failure 1) : Program .notes .none .connection Unit).attempt fun _ =>
          .embed () call)
        fun g => .raise (.wrapped ⟨3, []⟩ g)
    ∃ log s sc sc', Logs Bodies.none .stepped (fun s sc _ => s.leafNotes sc) (start f () p {})
        (.blank {}) log s sc ∧
      s.step Bodies.none .stepped sc =
        .ended (.error (.errored (.wrapped ⟨3, []⟩ (failure 2)))) sc' ∧
        FailedLast log (.wrapped ⟨3, []⟩ (failure 2)) := by
  intro f failure call p
  have first : Logs Bodies.none .stepped (fun s sc _ => s.leafNotes sc) (start f () p {})
      (.blank {}) [] _ _ := .begun
  have run := first.after 20
  obtain ⟨ends, -, -, -⟩ := failed_last run
  exact ⟨_, _, _, _, run, rfl, ends _ _ _ rfl rfl⟩

end State
end Cancelable
