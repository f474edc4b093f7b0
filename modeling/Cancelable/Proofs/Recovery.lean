import Cancelable.Proofs.Relay

/-!
# Recovery

There are three ways to go on after a failure: to handle it, to go on whether or not there was one,
and to make a value of it.  Each is the same as the last one with something after it.  What is done
with the failure is itself outside of the attempt, so a failure there is not recovered again; and a
cancellation is none of the three's business, so it is handed on.

Main statement: recovery by a handler, and sequences that go on after a failure, are attempts that
are followed by a program, and an attempt relays the program that is attempted
(`Program.recovery_laws`).
-/

namespace Cancelable

variable {B : Backend} {P : Procedures} {ρ ρ' : Type}

/-! ## Attempts -/

/-- What an attempt makes of the result of a program. -/
def attempted {α : Type} : Except Interrupted α → Except Interrupted (Except Failure α)
  | .ok x => .ok (.ok x)
  | .error (.errored failure) => .ok (.error failure)
  | .error .canceled => .error .canceled

section Attempted

variable {α : Type} {r : Except Interrupted α}

theorem attempted_ne_errored (r : Except Interrupted α) (failure : Failure) :
    attempted r ≠ .error (.errored failure) := by
  rcases r with (_ | _) | _ <;> exact nofun

theorem attempted_eq_canceled : attempted r = .error .canceled ↔ r = .error .canceled := by
  rcases r with (_ | _) | _ <;> simp [attempted]

end Attempted

/-- The frames of an attempt. -/
def Stack.attempting {a : Algebra} {α : Type} (stack : Stack B P a (Except Failure α) ρ) :
    Stack B P a α ρ :=
  .cons (.map fun x => Host.pure (.ok x))
    (.cons (.recover fun failure => .pure (.error failure)) stack)

namespace State

variable {bodies : Bodies B P} {rt : Runtime} {a : Algebra} {α β : Type} {f : Fiber} {calls : Nat}
  {site : Site B a} {sc : Scene B}

/-- A step leaves the outline alone, and is taken before the program on a stack has come to its
result. -/
def QuietAbove (site : Site B a) (stack : Stack B P a α ρ) (s : State B P ρ) (sc sc' : Scene B) :
    Prop :=
  s.Quiet sc sc' ∧ s.Away site stack sc sc'

/-- An attempt that is not refused puts its frames on the stack. -/
theorem Leads.attempt (p : Program B P a α) (stack : Stack B P a (Except Failure α) ρ)
    (clear : sc.fibers.isCanceled f = false) :
    Leads bodies rt (QuietAbove site stack) ⟨f, calls, site, .run p.attempt, stack⟩ sc
      ⟨f, calls, site, .run p, stack.attempting⟩ sc :=
  .step (observing_of_clear clear _) rfl ⟨rfl, not_back_of_run _ _⟩
    (.step rfl rfl ⟨rfl, not_back_of_run _ _⟩ .here)

/-- The frames of an attempt make of a result what an attempt makes of it. -/
theorem Leads.attempted (stack : Stack B P a (Except Failure α) ρ) (r : Except Interrupted α)
    (sc : Scene B) :
    ∃ sc', Leads bodies rt (QuietAbove site stack) ⟨f, calls, site, .give r, stack.attempting⟩ sc
      ⟨f, calls, site, .give (attempted r), stack⟩ sc' := by
  let handler (failure : Failure) : Program B P a (Except Failure α) := .pure (.error failure)
  have outer : QuietAbove site stack ⟨f, calls, site, .give r, stack.attempting⟩ sc sc :=
    ⟨rfl, not_back_of_height (Nat.lt_add_of_pos_right (by decide : 0 < 2))⟩
  have inner (r : Except Interrupted (Except Failure α)) (sc' : Scene B)
      (quiet : sc'.unreported = sc.unreported) :
      QuietAbove site stack ⟨f, calls, site, .give r, .cons (.recover handler) stack⟩ sc sc' :=
    ⟨quiet, not_back_of_height (Nat.lt_succ_self _)⟩
  rcases r with (failure | _) | x
  · have recovered : QuietAbove site stack ⟨f, calls, site, .run (handler failure), stack⟩
        (sc.emit (.recovering a failure) site.spans)
        (sc.emit (.recovering a failure) site.spans) :=
      ⟨rfl, not_back_of_run _ _⟩
    exact ⟨_, .step rfl rfl outer (.step rfl rfl (inner (.error (.errored failure)) _ rfl)
      (.step rfl rfl recovered .here))⟩
  · exact ⟨_, .step rfl rfl outer (.step rfl rfl (inner (.error .canceled) _ rfl) .here)⟩
  · exact ⟨_, .step rfl rfl outer (.step rfl rfl (inner (.ok (.ok x)) _ rfl) .here)⟩

end State

/-! ## Recovery by way of an attempt -/

section StandsFor

variable {bodies : Bodies B P} {rt : Runtime} {f : Fiber} {a : Algebra} {α β : Type}
  {site : Site B a}

open State

/-- A frame stands for an attempt that is followed by a program if it does with a result what the
program does with what the attempt makes of it. -/
theorem Stack.StandsFor.of_attempt (frame : Frame B P a α β)
    (k : Except Failure α → Program B P a β) (stack : Stack B P a β ρ)
    (agree : ∀ (calls : Nat) (r : Except Interrupted α) (sc sc' : Scene B), ∃ t sc₁ sc₁',
      Leads bodies rt Quiet ⟨f, calls, site, .give r, .cons frame stack⟩ sc t sc₁ ∧
        Leads bodies rt Quiet ⟨f, calls, site, .give (attempted r), .cons (.bind k) stack⟩ sc' t
          sc₁') :
    StandsFor bodies rt f site (.cons frame stack) (attempting (.cons (.bind k) stack)) where
  abandon _ := rfl
  leads calls r sc sc' := by
    obtain ⟨sc'', frames⟩ := Leads.attempted (.cons (.bind k) stack) r sc'
    obtain ⟨t, sc₁, sc₁', leads, leads'⟩ := agree calls r sc sc''
    exact ⟨t, sc₁, sc₁', leads, (frames.mono And.left).trans leads'⟩

theorem Stack.standsFor_recover (h : Failure → Program B P a α) (stack : Stack B P a α ρ) :
    StandsFor bodies rt f site (.cons (.recover h) stack)
      (attempting (.cons (.bind fun | .ok x => .pure x | .error failure => h failure) stack)) := by
  refine .of_attempt _ _ stack fun calls r sc sc' => ?_
  rcases r with (failure | _) | x
  · exact ⟨_, _, _, .step rfl rfl rfl .here, .step rfl rfl rfl .here⟩
  · exact ⟨_, _, _, .step rfl rfl rfl .here, .step rfl rfl rfl .here⟩
  · exact ⟨_, _, _, .step rfl rfl rfl .here, .step rfl rfl rfl (.step rfl rfl rfl .here)⟩

theorem Stack.standsFor_forceR (q : Program B P a β) (stack : Stack B P a β ρ) :
    StandsFor bodies rt f site (.cons (.forceR (α := α) q) stack)
      (attempting (.cons (.bind fun _ => q) stack)) := by
  refine .of_attempt _ _ stack fun calls r sc sc' => ?_
  rcases r with (failure | _) | x <;>
    exact ⟨_, _, _, .step rfl rfl rfl .here, .step rfl rfl rfl .here⟩

end StandsFor

/-! ## The laws -/

namespace Program

variable {bodies : Bodies B P} {a : Algebra} {α β : Type}

open State

/-- An operation that puts a frame on the stack acts as an attempt that is followed by a program, if
the frame stands for the frames of the two. -/
theorem actsAs_attempt {q : Program B P a β} (p : Program B P a α)
    (k : Except Failure α → Program B P a β) (frame : Frame B P a α β)
    (operation : q.isOperation = true)
    (entered : ∀ {ρ : Type} (rt : Runtime) (f : Fiber) (calls : Nat) (site : Site B a)
      (stack : Stack B P a β ρ) (sc : Scene B), sc.fibers.isCanceled f = false →
        Leads bodies rt Quiet ⟨f, calls, site, .run q, stack⟩ sc
          ⟨f, calls, site, .run p, .cons frame stack⟩ sc)
    (standsFor : ∀ {ρ : Type} (rt : Runtime) (f : Fiber) (site : Site B a)
      (stack : Stack B P a β ρ), Stack.StandsFor bodies rt f site (.cons frame stack)
        (.attempting (.cons (.bind k) stack))) :
    q.ActsAs bodies (.bind p.attempt k) := by
  refine actsAs_of_standsFor p (.cons frame) (fun stack => .attempting (.cons (.bind k) stack)) ?_
    standsFor
  intro ρ rt f calls site stack sc
  cases found : sc.fibers.isCanceled f with
  | true =>
    have refused : Leads bodies rt Quiet ⟨f, calls, site, .run (.bind p.attempt k), stack⟩ sc
        ⟨f, calls, site, .give (.error .canceled), stack⟩
        (sc.emit .cancellationObserved site.spans) :=
      .step rfl rfl rfl (.trans (.refused rfl found) (.step rfl rfl rfl .here))
    exact .inl ⟨_, _, .refused operation found, refused⟩
  | false =>
    have entered' : Leads bodies rt Quiet ⟨f, calls, site, .run (.bind p.attempt k), stack⟩ sc
        ⟨f, calls, site, .run p, .attempting (.cons (.bind k) stack)⟩ sc :=
      .step rfl rfl rfl ((Leads.attempt p (.cons (.bind k) stack) found).mono And.left)
    exact .inr ⟨sc, entered rt f calls site stack sc found, entered'⟩

/-- The recovery operators are defined by each other.  To handle a failure is to attempt the
program, and to go on with its value or with the handler of its failure; to go on with `q` even
after a failure is to attempt the program, and to go on with `q`.  An attempt in turn, wherever it
is run and whatever others do while it waits, is refused if the cancellation of the fiber is
requested and not put off, and relays the program that is attempted otherwise: it yields the value,
or the very failure, of the program.  So it never fails, and it is canceled exactly if it is refused
or the program is canceled. -/
theorem recovery_laws (bodies : Bodies B P) {a : Algebra} {α β : Type} (p : Program B P a α) :
    (∀ h : Failure → Program B P a α, ActsAs bodies (.handleError p h)
      (.bind p.attempt fun | .ok x => .pure x | .error failure => h failure)) ∧
    (∀ q : Program B P a β, ActsAs bodies (.forceR p q) (p.attempt.andThen q)) ∧
    ∀ (ρ ρ' : Type) (rt : Runtime) (others : Nat → Scene B → Scene B), Course.Unaware others →
      ∀ (f : Fiber) (calls : Nat) (site : Site B a) (stack : Stack B P a (Except Failure α) ρ)
        (stack' : Stack B P a α ρ') (sc : Scene B),
        let attempt := course bodies rt others ⟨f, calls, site, .run p.attempt, stack⟩ sc
        let plain := course bodies rt others ⟨f, calls, site, .run p, stack'⟩ sc
        (sc.fibers.isCanceled f = true →
          Course.Part attempt f site stack p.attempt 0 1 (.error .canceled) ∧
            (attempt 1).outline = (attempt 0).outline) ∧
        (sc.fibers.isCanceled f = false →
          Course.Relays f site stack stack' (fun _ => attempted) p.attempt p attempt plain) ∧
        ∀ n r, Course.Part attempt f site stack p.attempt 0 n r →
          (∀ failure, r ≠ .error (.errored failure)) ∧
          (r = .error .canceled ↔ sc.fibers.isCanceled f = true ∨
            ∃ m, Course.Part plain f site stack' p 0 m (.error .canceled)) := by
  refine ⟨?_, ?_, ?_⟩
  · intro h
    exact actsAs_attempt p _ (.recover h) rfl
      (fun _ _ _ _ _ _ clear => .step (observing_of_clear clear _) rfl rfl .here)
      (fun _ _ _ stack => Stack.standsFor_recover h stack)
  · intro q
    exact actsAs_attempt p _ (.forceR q) rfl
      (fun _ _ _ _ _ _ clear => .step (observing_of_clear clear _) rfl rfl .here)
      (fun _ _ _ stack => Stack.standsFor_forceR q stack)
  · intro ρ ρ' rt others unaware f calls site stack stack' sc attempt plain
    have refused (found : sc.fibers.isCanceled f = true) :
        Course.Part attempt f site stack p.attempt 0 1 (.error .canceled) :=
      .refused bodies rt others rfl found
    have relayed (clear : sc.fibers.isCanceled f = false) :
        Course.Relays f site stack stack' (fun _ => attempted) p.attempt p attempt plain := by
      refine Course.relays unaware ((Leads.attempt p stack clear).mono And.right) rfl
        (Nat.lt_add_of_pos_right (by decide : 0 < 2)) (fun _ => rfl) ?_
      intro n r _ calls sc _
      obtain ⟨sc', leads⟩ := Leads.attempted stack r sc
      exact ⟨sc', (leads.mono And.left).quiet, leads.mono And.right⟩
    refine ⟨?_, relayed, ?_⟩
    · intro found
      exact ⟨refused found, Course.outline_refused bodies rt others rfl found⟩
    · intro n r part
      cases found : sc.fibers.isCanceled f with
      | true =>
        obtain ⟨-, rfl⟩ := part.unique (refused found)
        exact ⟨nofun, by simp⟩
      | false =>
        obtain ⟨m, r', plain_part, rfl, -⟩ := (relayed found).only n r part
        refine ⟨attempted_ne_errored r', ?_⟩
        rw [attempted_eq_canceled]
        constructor
        · rintro rfl
          exact .inr ⟨m, plain_part⟩
        · rintro (found | ⟨m', canceled⟩)
          · cases found
          · exact (plain_part.unique canceled).2

/-- A program makes a blocking call, and then fails.  The cancellation is requested during the call,
inside of a region, so it is put off; the attempt comes to the failure, as the program does. -/
theorem attempted_when_waiting :
    let f : Fiber := ⟨.numbered 0, .numbered 0⟩
    let failure : Failure := .message ⟨0, [0]⟩ "no"
    let p : Program .notes .none .largeObject Unit :=
      .bind (.suspend .blocking (Host.update fun written : List Nat => (.ok (), written ++ [1])))
        fun () => .raise failure
    let site : Site .notes .largeObject := ⟨(), 0, []⟩
    let others (_ : Nat) (sc : Scene .notes) := { sc with fibers := sc.fibers.cancel f }
    let scene : Scene .notes := .blank (Fibers.setMask {} f 1)
    let attempt := course Bodies.none .stepped others ⟨f, 0, site, .run p.attempt, .nil⟩ scene
    let plain := course Bodies.none .stepped others ⟨f, 0, site, .run p, .nil⟩ scene
    scene.fibers.isCanceled f = false ∧ (plain 6).scene.fibers.isRequested f = true ∧
      ∃ k, Course.Part attempt f site .nil p.attempt 0 k (.ok (.error failure)) ∧
        (plain 6).Alike (attempt k) := by
  intro f failure p site others scene attempt plain
  have unaware : Course.Unaware others := Course.unaware_cancel f
  obtain ⟨-, -, attempts⟩ := recovery_laws (β := Unit) Bodies.none p
  obtain ⟨-, relayed, -⟩ :=
    attempts (Except Failure Unit) Unit .stepped others unaware f 0 site .nil .nil scene
  have plain_part : Course.Part plain f site .nil p 0 6 (.error (.errored failure)) := by
    refine ⟨by decide, ⟨0, rfl⟩, ?_, rfl, ⟨1, rfl⟩⟩
    rintro k - lt ⟨_, _, _, back⟩
    match k with
    | 0 | 1 | 2 | 3 | 4 | 5 => cases back
  exact ⟨rfl, rfl, (relayed rfl).returns 6 _ plain_part⟩

end Program
end Cancelable
