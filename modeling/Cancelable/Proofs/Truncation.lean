import Cancelable.Proofs.Course
import Cancelable.Proofs.Finalizer
import Cancelable.Proofs.Oblivious
import Cancelable.Proofs.Restoration

/-!
# Requests cut runs short

Run a program twice from the same point, and let the cancellation of its fiber be requested in the
second run whenever it is in the first one, and at other times as well.  The two runs take the same
steps up to the point where a look finds a cancellation in the second run and none in the first.
From there on the second run is doomed: it carries out nothing more, finalizers apart, and it does
not come to a value or a failure.  If there is no such point, nobody can tell the runs apart.

Main statement: more requests make a run carry out less, or make no difference
(`Course.truncated`).
-/

namespace Cancelable

variable {B : Backend} {P : Procedures} {ρ : Type}

/-! ## Doomed programs carry out nothing but finalizers -/

namespace State

variable {bodies : Bodies B P} {rt : Runtime} {s s' : State B P ρ} {sc sc' : Scene B}

theorem isDoomed_iff :
    s.isDoomed = true ↔ s.control = .give (.error .canceled) ∨ 0 < s.stack.finalizers := by
  have canceled : s.control.isCanceled = true ↔ s.control = .give (.error .canceled) :=
    ⟨Control.eq_of_isCanceled, fun control => by rw [control]; rfl⟩
  rw [← canceled]
  simp [isDoomed, Nat.pos_iff_ne_zero]

/-- While a program is doomed, nothing is carried out but by finalizers. -/
theorem does_of_doomed (doomed : s.isDoomed = true) :
    (s.does sc).filter (fun done => !done.inFinalizer) = [] := by
  rcases isDoomed_iff.mp doomed with canceled | running
  · simp [does, executes, canceled]
  · simp [does, Nat.pos_iff_ne_zero.mp running]

/-- A doomed program ends canceled. -/
theorem canceled_of_doomed {r : Except Interrupted ρ} (doomed : s.isDoomed = true)
    (ended : s.step bodies rt sc = .ended r sc') : r = .error .canceled := by
  obtain ⟨a, f, calls, site, rfl, -⟩ := eq_of_ended ended
  rcases isDoomed_iff.mp doomed with canceled | running
  · exact Control.give.inj canceled
  · exact absurd running (Nat.lt_irrefl 0)

/-- A doomed program breaks off in a finalizer only. -/
theorem finalizers_pos_of_doomed {panic : Panic} (doomed : s.isDoomed = true)
    (panicked : s.step bodies rt sc = .panicked panic sc') : 0 < s.stack.finalizers := by
  rcases isDoomed_iff.mp doomed with canceled | running
  · -- a cancellation is handed on without running any host code
    have unwinds : Unwinds s sc (s.step bodies rt sc) := (step_unwinds canceled).1
    rw [panicked] at unwinds
    cases unwinds
  · exact running

/-- Under the same circumstances a program takes the same step, whether or not its cancellation is
requested, or it finds the request, carries out nothing and is doomed. -/
theorem step_under_request (rt : Runtime) {f : Fiber} (fiber : s.fiber = f)
    (kept : (Discipline.blind B f).Kept bodies) (obeys : s.Obeys (.blind B f))
    (alike : sc.withdraw f = sc'.withdraw f)
    (requested : sc = sc' ∨ sc'.fibers.isRequested f = true) :
    s.does sc = s.does sc' ∧
        (s.step bodies rt sc).withdraw f = (s.step bodies rt sc').withdraw f ∧
          (s.step bodies rt sc = s.step bodies rt sc' ∨ sc'.fibers.isRequested f = true) ∨
      s.does sc' = [] ∧ ∃ t sc'', s.step bodies rt sc' = .more t sc'' ∧ t.isDoomed = true := by
  subst fiber
  by_cases looks : s.looks sc = s.looks sc'
  · refine .inl ⟨?_, ?_, ?_⟩
    · rw [does, does, executes_eq_of_looks looks]
    · exact step_alike rt (fun _ blind => blind) kept obeys.control
        (fun _ _ => obeys.stack.topObeys) alike looks
    · exact requested.imp_left fun same => by rw [same]
  · -- the request is in the second scene only, where all is found that is found in the first
    have requested : sc'.fibers.isRequested s.fiber = true :=
      requested.resolve_left fun same => looks (by rw [same])
    have found : s.finds sc' = true := by
      cases nothing : s.finds sc' with
      | true => rfl
      | false =>
        refine absurd ?_ looks
        rw [looks_of_finds nothing]
        refine looks_of_finds (Bool.eq_false_iff.mpr fun found => ?_)
        have found := finds_of_requested requested (Scene.mask_of_alike alike _) found
        cases nothing.symm.trans found
    obtain ⟨t, sc'', next⟩ := step_of_finds bodies rt found
    refine .inr ⟨by rw [does, executes_of_finds requested found]; rfl, t, sc'', next, ?_⟩
    rw [(flows_of_goesTo (.inl next)).isDoomed, found, Bool.true_or]

end State

/-- What others do under a schedule: now and then they request the cancellation of a fiber. -/
def requesting (f : Fiber) (cancels : Nat → Bool) (n : Nat) (sc : Scene B) : Scene B :=
  sc.cancelIf (cancels n) f

namespace Course

variable {bodies : Bodies B P} {rt : Runtime} {f : Fiber} {cancels cancels' : Nat → Bool}
  {others : Nat → Scene B → Scene B} {c c' : Course B P ρ} {n n' : Next B P ρ}

/-! ## Doomed runs -/

/-- The run has found a cancellation: it goes on with finalizers only, and ends canceled, if no
finalizer breaks off. -/
structure Doomed (c : Course B P ρ) : Prop where
  pending : c.ending? = none → c.state.isDoomed = true
  canceled : ∀ o, c.ending? = some (.outcome o) → o.isCanceled = true
  broken : ∀ panic, c.ending? = some (.panicked panic) → 0 < c.state.stack.finalizers

theorem Doomed.of_state (pending : c.ending? = none) (doomed : c.state.isDoomed = true) :
    c.Doomed where
  pending _ := doomed
  canceled _ ended := by cases pending.symm.trans ended
  broken _ ended := by cases pending.symm.trans ended

/-- A doomed run stays doomed, and carries out nothing more outside of finalizers. -/
theorem Doomed.next (h : c.Doomed) :
    (c.next bodies rt others).Doomed ∧ (c.next bodies rt others).outside = c.outside := by
  cases ended : c.ending? with
  | some ending =>
    rw [next_of_over ended]
    exact ⟨h, rfl⟩
  | none =>
    have doomed : c.state.isDoomed = true := h.pending ended
    have stays {s : State B P ρ} {sc : Scene B}
        (goes : (c.state.step bodies rt c.scene).GoesTo s sc) : s.isDoomed = true := by
      rw [(State.flows_of_goesTo goes).isDoomed, doomed, Bool.or_true]
    rw [next_of_pending ended, outside_follow, outside_note, State.does_of_doomed doomed]
    refine ⟨?_, List.append_nil _⟩
    cases e : c.state.step bodies rt c.scene with
    | more s sc => exact .of_state ended (stays (.inl e))
    | waiting s sc => exact .of_state ended (stays (.inr e))
    | ended r sc =>
      refine ⟨nofun, ?_, nofun⟩
      rintro o ⟨⟩
      rw [State.canceled_of_doomed doomed e]
      rfl
    | panicked panic sc => exact ⟨nofun, nofun, fun _ _ => State.finalizers_pos_of_doomed doomed e⟩

/-! ## Two runs -/

/-- Two runs cannot be told apart, unless by the request: it may have been made in the second run
only. -/
structure Together (f : Fiber) (c c' : Course B P ρ) : Prop where
  state_eq : c.state = c'.state
  log_eq : c.log = c'.log
  waits_eq : c.waits = c'.waits
  ending_eq : c.ending? = c'.ending?
  alike : c.scene.withdraw f = c'.scene.withdraw f
  requested : c'.ending? = none → c.scene = c'.scene ∨ c'.scene.fibers.isRequested f = true

/-- The same step leads to the same, under a schedule with more requests. -/
theorem Together.follow (h : Together f c c') (more : ∀ n, cancels n = true → cancels' n = true)
    (same : n.withdraw f = n'.withdraw f)
    (requested : n = n' ∨ ∀ s sc, n'.GoesTo s sc → sc.fibers.isRequested f = true) :
    Together f (c.follow (requesting f cancels) n) (c'.follow (requesting f cancels') n') := by
  cases n with
  | more s sc =>
    obtain ⟨sc', rfl, scenes⟩ := Next.eq_more_of_withdraw same
    refine ⟨rfl, h.log_eq, h.waits_eq, h.ending_eq, scenes, fun _ => ?_⟩
    exact requested.imp (fun same => (Next.more.inj same).2) fun later => later _ _ (.inl rfl)
  | waiting s sc =>
    obtain ⟨sc', rfl, scenes⟩ := Next.eq_waiting_of_withdraw same
    have waits : c.waits + 1 = c'.waits + 1 := congrArg (· + 1) h.waits_eq
    refine ⟨rfl, h.log_eq, waits, h.ending_eq, ?_, fun _ => ?_⟩
    · calc
        (sc.cancelIf (cancels (c.waits + 1)) f).withdraw f = sc.withdraw f :=
          Scene.withdraw_cancelIf ..
        _ = sc'.withdraw f := scenes
        _ = (sc'.cancelIf (cancels' (c'.waits + 1)) f).withdraw f :=
          (Scene.withdraw_cancelIf ..).symm
    · simp only [Course.follow, waits]
      refine Scene.cancelIf_cases (more _) ?_
      exact requested.imp (fun same => (Next.waiting.inj same).2) fun later => later _ _ (.inr rfl)
  | ended r sc =>
    cases n' with
    | ended r' sc' =>
      obtain ⟨rfl, scenes⟩ := Next.ended.inj same
      exact ⟨h.state_eq, h.log_eq, h.waits_eq, rfl, scenes, nofun⟩
    | _ => cases same
  | panicked panic sc =>
    cases n' with
    | panicked panic' sc' =>
      obtain ⟨rfl, scenes⟩ := Next.panicked.inj same
      exact ⟨h.state_eq, h.log_eq, h.waits_eq, rfl, scenes, nofun⟩
    | _ => cases same

/-- Two runs that are together stay so, or the second run finds a cancellation that the first one
does not find. -/
theorem Together.next (rt : Runtime) (kept : (Discipline.blind B f).Kept bodies)
    (more : ∀ n, cancels n = true → cancels' n = true) (h : Together f c c')
    (blind : c'.ending? = none → c'.state.fiber = f ∧ c'.state.Obeys (.blind B f)) :
    let first := c.next bodies rt (requesting f cancels)
    let second := c'.next bodies rt (requesting f cancels')
    Together f first second ∨ second.Doomed ∧ second.outside <+: first.outside := by
  intro first second
  cases ended : c'.ending? with
  | some ending =>
    refine .inl ?_
    rw [show first = c from next_of_over (h.ending_eq.trans ended),
      show second = c' from next_of_over ended]
    exact h
  | none =>
    obtain ⟨fiber, obeys⟩ := blind ended
    rcases c'.state.step_under_request rt fiber kept obeys h.alike (h.requested ended) with
      ⟨does, same, requested⟩ | ⟨idle, t, sc', next, doomed⟩
    · refine .inl ?_
      rw [show first = _ from next_of_pending (h.ending_eq.trans ended),
        show second = _ from next_of_pending ended, h.state_eq]
      have noted : Together f c.note c'.note :=
        { h with log_eq := by rw [note, note, h.state_eq, h.log_eq, does] }
      refine noted.follow more same (requested.imp_right fun requested s sc goes => ?_)
      exact (State.step_orderly bodies rt _ _).goesTo goes f requested
    · refine .inr ⟨?_, ?_⟩
      · rw [show second = _ from next_of_pending ended, next]
        exact .of_state ended doomed
      · have less : second.outside = c.outside := by
          rw [show second = _ from next_of_pending ended, outside_follow, outside_note, idle,
            outside, outside, h.log_eq]
          exact List.append_nil _
        rw [less]
        exact outside_next c

/-! ## The run under two schedules -/

section Schedules

variable {a : Algebra} {handle : B.Handle a} {p : Program B P a ρ} {sc : Scene B}

/-- At each point the runs under two schedules are together, or the second one has found a
cancellation that the first one has not found. -/
theorem together_or_doomed (rt : Runtime) (handle : B.Handle a) (sc : Scene B)
    (kept : (Discipline.blind B f).Kept bodies)
    (obeys : p.Obeys (.blind B f)) (more : ∀ n, cancels n = true → cancels' n = true) (n : Nat) :
    let start := State.start f handle p sc.fibers
    let first := course bodies rt (requesting f cancels) start (requesting f cancels 0 sc) n
    let second := course bodies rt (requesting f cancels') start (requesting f cancels' 0 sc) n
    Together f first second ∨ second.Doomed ∧ second.outside <+: first.outside := by
  intro start first second
  induction n with
  | zero =>
    refine .inl ⟨rfl, rfl, rfl, rfl, ?_, fun _ => Scene.cancelIf_cases (more 0) (.inl rfl)⟩
    exact (Scene.withdraw_cancelIf ..).trans (Scene.withdraw_cancelIf ..).symm
  | succ n ih =>
    rcases ih with together | ⟨doomed, less⟩
    · refine together.next rt kept more fun pending => ?_
      have blind : start.fiber = f ∧ start.Obeys (.blind B f) := ⟨rfl, obeys, trivial⟩
      refine invariant (I := fun s _ => s.fiber = f ∧ s.Obeys (.blind B f)) blind ?_
        (fun _ blind => blind) n pending
      rintro t t' sc sc' goes ⟨fiber, obeys⟩
      exact ⟨(State.fiber_of_moves (State.moves_of_goesTo goes)).trans fiber,
        obeys.goesTo kept (fun _ => trivial) goes⟩
    · refine .inr ⟨doomed.next.1, ?_⟩
      rw [show second.outside = _ from doomed.next.2]
      exact less.trans (outside_next _)

/-- More requests make a run carry out less, or make no difference.  Let a program be run twice from
the same scene, where neither the program nor the backend nor any procedure looks at the request of
the fiber, and let the cancellation be requested in the second run, before its start or between two
turns, whenever it is in the first run.  What the second run has carried out outside of finalizers
up to some step is a prefix of what the first run has carried out up to that step or a later one, or
up to its end.  If the second run comes to a value or a failure, so does the first one, after the
same operations, and the scenes it leaves are the same but for the request; and likewise if it
breaks off outside of all finalizers. -/
theorem truncated (rt : Runtime) (handle : B.Handle a) (sc : Scene B)
    (kept : (Discipline.blind B f).Kept bodies) (obeys : p.Obeys (.blind B f))
    (more : ∀ n, cancels n = true → cancels' n = true) :
    let start := State.start f handle p sc.fibers
    let first := course bodies rt (requesting f cancels) start (requesting f cancels 0 sc)
    let second := course bodies rt (requesting f cancels') start (requesting f cancels' 0 sc)
    (∀ m n, n ≤ m ∨ (first m).ending?.isSome = true →
      (second n).outside <+: (first m).outside) ∧
    (∀ n o, (second n).ending? = some (.outcome o) → o.isCanceled = false →
      (first n).ending? = some (.outcome o) ∧ (first n).log = (second n).log ∧
        (first n).scene.withdraw f = (second n).scene.withdraw f) ∧
    ∀ n panic, (second n).ending? = some (.panicked panic) →
      (second n).state.stack.finalizers = 0 →
        (first n).ending? = some (.panicked panic) ∧ (first n).log = (second n).log ∧
          (first n).scene.withdraw f = (second n).scene.withdraw f := by
  intro start first second
  have cases (n : Nat) :
      Together f (first n) (second n) ∨
        (second n).Doomed ∧ (second n).outside <+: (first n).outside :=
    together_or_doomed rt handle sc kept obeys more n
  refine ⟨?_, ?_, ?_⟩
  · intro m n early
    have less : (second n).outside <+: (first n).outside := by
      rcases cases n with together | ⟨-, less⟩
      · have same : (first n).outside = (second n).outside := by
          rw [outside, outside, together.log_eq]
        exact same ▸ List.prefix_refl _
      · exact less
    refine less.trans ?_
    rcases Nat.le_total n m with le | le
    · exact outside_course_mono le
    · rcases early with le' | ended
      · exact outside_course_mono le'
      · -- the first run is over, and has carried out nothing since
        obtain ⟨ending, ended⟩ := Option.isSome_iff_exists.mp ended
        have last : first n = first m := course_of_over le ended
        exact last ▸ List.prefix_refl _
  · intro n o ended other
    rcases cases n with together | ⟨doomed, -⟩
    · exact ⟨together.ending_eq.trans ended, together.log_eq, together.alike⟩
    · cases other.symm.trans (doomed.canceled o ended)
  · intro n panic broken idle
    rcases cases n with together | ⟨doomed, -⟩
    · exact ⟨together.ending_eq.trans broken, together.log_eq, together.alike⟩
    · exact absurd idle (Nat.pos_iff_ne_zero.mp (doomed.broken panic broken))

end Schedules

/-- A program makes a blocking call and then writes a note.  If the cancellation is requested during
the call, the call is made all the same, but the note is not written.  Without the note the request
makes no difference. -/
theorem truncated_when_waiting :
    let f : Fiber := ⟨.numbered 0, .numbered 0⟩
    let call : Program .notes .none .connection Unit :=
      .suspend .blocking (Host.update fun written : List Nat => (.ok (), written ++ [1]))
    let p : Program .notes .none .connection Unit := .bind call fun () => .note 2
    let never (_ : Nat) := false
    let once (n : Nat) := n == 1
    let run (p : Program .notes .none .connection Unit) (cancels : Nat → Bool) :=
      course Bodies.none .stepped (requesting f cancels) (.start f () p {})
        (requesting f cancels 0 (.blank {})) 9
    ((run p once).ending? = some (.outcome .canceled) ∧ (run p once).scene.world = [1] ∧
      (run p never).scene.world = [1, 2] ∧ (run p once).outside <+: (run p never).outside) ∧
    (run call once).ending? = some (.outcome (.succeeded ())) ∧
      (run call never).ending? = some (.outcome (.succeeded ())) ∧
        (run call never).log = (run call once).log := by
  intro f call p never once run
  have kept : (Discipline.blind .notes f).Kept (P := .none) Bodies.none :=
    ⟨fun _ _ _ _ _ _ => rfl, fun _ _ _ _ => rfl, fun _ _ _ _ => rfl, nofun⟩
  have call_obeys : call.Obeys (.blind .notes f) := fun _ _ _ _ => rfl
  have obeys : p.Obeys (.blind .notes f) := ⟨call_obeys, fun _ _ _ _ _ => rfl⟩
  have more : ∀ n, never n = true → once n = true := nofun
  obtain ⟨less, -, -⟩ := truncated .stepped () (.blank {}) kept obeys more
  obtain ⟨-, same, -⟩ := truncated .stepped () (.blank {}) kept call_obeys more
  have ended : (run call once).ending? = some (.outcome (.succeeded ())) := rfl
  obtain ⟨ended', log, -⟩ := same 9 _ ended rfl
  exact ⟨⟨rfl, rfl, rfl, less 9 9 (.inl (Nat.le_refl 9))⟩, ended, ended', log⟩

end Course
end Cancelable
