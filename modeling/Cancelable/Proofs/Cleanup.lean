import Cancelable.Proofs.Flow

/-!
# Cleaning up

A run may log what becomes of the programs that have a finalizer: that one is entered, to what end
it comes, that a finalizer is started and to what end it comes, and what is handed on afterwards.
Each step adds the marks for what it has done.

The log of a run that has come to its end is tidy.  A program that is not canceled is left at once.
A program that is canceled is followed by its finalizer, to the end of it, and then a cancellation
is handed on, whatever the finalizer came to; and since nothing but the end of the program around
follows, finalizers are run one after another from the innermost outwards.  What a program and its
finalizer log in between is tidy again.

Main statement: the log of a run from its start to its end is tidy, and what follows from that for
each mark (`State.cleaned_up`).
-/

namespace Cancelable

variable {B : Backend} {P : Procedures} {ρ : Type}

/-! ## Marks -/

/-- A program, and the handle it is run on: a finalizer, where one is set up. -/
structure Cleanup (B : Backend) (P : Procedures) : Type 1 where
  {a : Algebra}
  {α : Type}
  handle : B.Handle a
  program : Program B P a α

/-- What is logged of programs that have a finalizer. -/
inductive Mark (B : Backend) (P : Procedures) : Type 1 where
  /-- A program is entered that has a finalizer. -/
  | entered (cleanup : Cleanup B P)
  /-- A program that has a finalizer has ended. -/
  | guarded (result : Except Interrupted Unit)
  /-- A program is started in its place. -/
  | started (cleanup : Cleanup B P)
  /-- A finalizer has ended. -/
  | finished (result : Except Interrupted Unit)
  /-- A result is handed on from a program that has a finalizer. -/
  | left (result : Except Interrupted Unit)

namespace Mark

/-- Whether a program that has a finalizer has ended canceled. -/
def cancels : Mark B P → Bool
  | guarded r => isCancellation r
  | _ => false

def starts : Mark B P → Bool
  | started _ => true
  | _ => false

end Mark

/-- The mark for the result that a frame is given, if it has or is waiting for a finalizer. -/
def Frame.mark? {a : Algebra} {α β : Type} : Frame B P a α β → Except Interrupted Unit →
    Option (Mark B P)
  | .onCancel _, r => some (.guarded r)
  | .finalizing _, r => some (.finished r)
  | _, _ => none

def Stack.mark? {a : Algebra} {α : Type} : Stack B P a α ρ → Except Interrupted Unit →
    Option (Mark B P)
  | .cons frame _, r => frame.mark? r
  | _, _ => none

/-- The end a program has come to, whatever its value is. -/
def withoutValue {α : Type} (r : Except Interrupted α) : Except Interrupted Unit :=
  r.map fun _ => ()

namespace State

/-- The mark for what is done next. -/
def onward (s : State B P ρ) : List (Mark B P) :=
  match s.control with
  | .run p => [.started ⟨s.site.handle, p⟩]
  | .give r => [.left (withoutValue r)]
  | .block .. => []

/-- The marks for a step from `s` to `s'`. -/
def marks (s : State B P ρ) (_ : Scene B) (s' : State B P ρ) : List (Mark B P) :=
  match s.control with
  | .run p =>
    match (Control.run p).finalizer? with
    -- a program is not entered where a cancellation is found before it
    | some finalizer => if s'.control.isResult then [] else [.entered ⟨s.site.handle, finalizer⟩]
    | none => []
  | .give r =>
    match s.stack.mark? (withoutValue r) with
    | some mark => mark :: s'.onward
    | none => []
  | .block .. => []

end State

/-! ## Tidy logs -/

/-- A log that is tidy: `Tidy true` for a program that ends canceled, `Tidy false` for others. -/
inductive Tidy : Bool → List (Mark B P) → Prop where
  | none {canceled : Bool} : Tidy canceled []
  /-- A program with a finalizer ends otherwise than canceled, and is left. -/
  | passed {canceled : Bool} {r : Except Interrupted Unit} {inside rest : List (Mark B P)}
      (c : Cleanup B P) (other : isCancellation r = false) (h : Tidy false inside)
      (k : Tidy canceled rest) :
      Tidy canceled (.entered c :: inside ++ .guarded r :: .left r :: rest)
  /-- A program with a finalizer ends canceled; its finalizer is run, and nothing else after it. -/
  | cleaned {r : Except Interrupted Unit} {inside cleanup : List (Mark B P)} (c : Cleanup B P)
      (h : Tidy true inside) (k : Tidy (isCancellation r) cleanup) :
      Tidy true
        (.entered c :: inside ++
          .guarded (.error .canceled) :: .started c :: cleanup ++
            [.finished r, .left (.error .canceled)])

namespace Tidy

variable {canceled : Bool} {log log' : List (Mark B P)}

/-- A cancellation may be found where nothing is cleaned up. -/
theorem toCanceled (h : Tidy canceled log) : Tidy true log := by
  induction h with
  | none => exact .none
  | passed c other h _ _ ih => exact .passed c other h ih
  | cleaned c h k _ _ => exact .cleaned c h k

theorem append (h : Tidy false log) (k : Tidy canceled log') : Tidy canceled (log ++ log') := by
  generalize quiet : false = b at h
  induction h with
  | none => exact k
  | passed c other h _ _ ih =>
    have rest := ih quiet
    simpa using Tidy.passed c other h rest
  | cleaned => cases quiet

end Tidy

/-! ## What follows a mark -/

/-- What comes after a program with the finalizer `c` has been entered: the end of that program, and
the finalizer exactly if it is canceled. -/
inductive Matched (c : Cleanup B P) : List (Mark B P) → Prop where
  | passed {r : Except Interrupted Unit} {inside rest : List (Mark B P)}
      (other : isCancellation r = false) (h : Tidy false inside) :
      Matched c (inside ++ .guarded r :: .left r :: rest)
  | cleaned {r : Except Interrupted Unit} {inside cleanup rest : List (Mark B P)}
      (h : Tidy true inside) (k : Tidy (isCancellation r) cleanup) :
      Matched c
        (inside ++
          .guarded (.error .canceled) :: .started c :: cleanup ++
            .finished r :: .left (.error .canceled) :: rest)

/-- What comes after a finalizer has ended and a cancellation was handed on, if anything: the end of
the program around, and with it the next finalizer, or the end of the finalizer around. -/
inductive HandedOn : List (Mark B P) → Prop where
  | next {c : Cleanup B P} {rest : List (Mark B P)} :
      HandedOn (.guarded (.error .canceled) :: .started c :: rest)
  | around {rest : List (Mark B P)} :
      HandedOn (.finished (.error .canceled) :: .left (.error .canceled) :: rest)

theorem Matched.append {c : Cleanup B P} {log : List (Mark B P)} (h : Matched c log)
    (log' : List (Mark B P)) : Matched c (log ++ log') := by
  cases h with
  | passed other h => simpa using Matched.passed other h
  | cleaned h k => simpa using Matched.cleaned h k

theorem HandedOn.append {log : List (Mark B P)} (h : HandedOn log) (log' : List (Mark B P)) :
    HandedOn (log ++ log') := by
  cases h with
  | next => exact .next
  | around => exact .around

/-- A place in one of two lists, one after the other. -/
theorem suffix_append_cases {α : Type _} {x : α} {after l l' : List α}
    (h : x :: after <:+ l ++ l') :
    x :: after <:+ l' ∨ ∃ t, x :: t <:+ l ∧ after = t ++ l' := by
  rcases List.suffix_or_suffix_of_suffix h (List.suffix_append l l') with within | around
  · exact .inl within
  · rcases List.suffix_cons_iff.mp around with here | ⟨t, rfl⟩
    · exact .inl (by simp [here])
    · refine .inr ⟨t, ?_, rfl⟩
      exact List.suffix_append_self_iff.mp (by simpa using h)

namespace Tidy

variable {canceled : Bool} {log : List (Mark B P)}

theorem matched (h : Tidy canceled log) {c : Cleanup B P} {after : List (Mark B P)}
    (place : .entered c :: after <:+ log) : Matched c after := by
  -- the program is the first of the log, or it was entered inside, in the finalizer or in the rest
  induction h generalizing after with
  | none => simp at place
  | @passed _ r inside rest c' other h k inside_ih rest_ih =>
    rcases suffix_append_cases place with later | ⟨t, earlier, rfl⟩
    · have later : .entered c :: after <:+ rest := by simpa [List.suffix_cons_iff] using later
      exact rest_ih later
    · rcases List.suffix_cons_iff.mp earlier with first | inner
      · cases first
        exact .passed other h
      · exact (inside_ih inner).append _
  | @cleaned r inside cleanup c' h k inside_ih cleanup_ih =>
    rcases suffix_append_cases place with last | ⟨t, earlier, rfl⟩
    · simp [List.suffix_cons_iff] at last
    · rcases suffix_append_cases earlier with later | ⟨t', first, rfl⟩
      · have later : .entered c :: t <:+ cleanup := by simpa [List.suffix_cons_iff] using later
        exact (cleanup_ih later).append _
      · rcases List.suffix_cons_iff.mp first with here | inner
        · cases here
          exact .cleaned h k
        · simpa using (inside_ih inner).append _

theorem handedOn (h : Tidy canceled log) {after : List (Mark B P)}
    (place : .left (.error .canceled) :: after <:+ log) :
    after = [] ∧ canceled = true ∨ HandedOn after := by
  -- a cancellation that ends the log inside, or that of the finalizer, is followed by what closes
  -- it
  induction h generalizing after with
  | none => simp at place
  | @passed _ r inside rest c other h k inside_ih rest_ih =>
    rcases suffix_append_cases place with later | ⟨t, earlier, rfl⟩
    · simp only [List.suffix_cons_iff, List.cons.injEq, reduceCtorEq, false_and, false_or] at later
      rcases later with ⟨same, rfl⟩ | later
      · cases same
        cases other
      · exact rest_ih later
    · have inner : .left (.error .canceled) :: t <:+ inside := by
        simpa [List.suffix_cons_iff] using earlier
      rcases inside_ih inner with ⟨_, canceled⟩ | on
      · cases canceled
      · exact .inr (on.append _)
  | @cleaned r inside cleanup c h k inside_ih cleanup_ih =>
    rcases suffix_append_cases place with last | ⟨t, earlier, rfl⟩
    · exact .inl ⟨by simpa [List.suffix_cons_iff] using last, rfl⟩
    · refine .inr ?_
      rcases suffix_append_cases earlier with later | ⟨t', first, rfl⟩
      · have later : .left (.error .canceled) :: t <:+ cleanup := by
          simpa [List.suffix_cons_iff] using later
        rcases cleanup_ih later with ⟨rfl, canceled⟩ | on
        · rw [eq_of_isCancellation canceled]
          exact .around
        · exact on.append _
      · have inner : .left (.error .canceled) :: t' <:+ inside := by
          simpa [List.suffix_cons_iff] using first
        rcases inside_ih inner with ⟨rfl, _⟩ | on
        · exact .next
        · simpa using on.append _

/-- As many finalizers are started as programs that have one end canceled. -/
theorem countP_starts (h : Tidy canceled log) :
    log.countP Mark.starts = log.countP Mark.cancels := by
  induction h with
  | none => rfl
  | passed c other h k inside_ih rest_ih =>
    simp [Mark.starts, Mark.cancels, other, inside_ih, rest_ih]
  | cleaned c h k inside_ih cleanup_ih =>
    simp [List.countP_cons, Mark.starts, Mark.cancels, isCancellation, inside_ih, cleanup_ih]

end Tidy

/-! ## Logs of programs in progress -/

/-- What has been logged up to the frames that are waiting: of each frame that has a finalizer, that
its program was entered; of each frame that waits for one, that it was started. -/
inductive Stack.Opened : {a : Algebra} → {α : Type} → Site B a → Stack B P a α ρ →
    List (Mark B P) → Prop where
  | nil {a : Algebra} {site : Site B a} : Opened site .nil []
  | plain {a : Algebra} {α β : Type} {site : Site B a} {frame : Frame B P a α β}
      {rest : Stack B P a β ρ} {log : List (Mark B P)} (plain : frame.cleansUp = false)
      (h : Opened site rest log) : Opened site (.cons frame rest) log
  | guarding {a : Algebra} {α : Type} {site : Site B a} {finalizer : Program B P a Unit}
      {rest : Stack B P a α ρ} {log before : List (Mark B P)} (h : Opened site rest log)
      (k : Tidy false before) :
      Opened site (.cons (.onCancel finalizer) rest)
        (log ++ before ++ [.entered ⟨site.handle, finalizer⟩])
  | cleaning {a : Algebra} {α : Type} {site : Site B a} {rest : Stack B P a α ρ}
      {log before inside : List (Mark B P)} (level : Nat) (c : Cleanup B P)
      (h : Opened site rest log) (k : Tidy false before) (l : Tidy true inside) :
      Opened site (.cons (.finalizing level) rest)
        (log ++ before ++ .entered c :: inside ++ [.guarded (.error .canceled), .started c])
  | embedded {a b : Algebra} {α : Type} {outside : Site B a} {inside : Site B b}
      {rest : Stack B P a α ρ} {log : List (Mark B P)} (h : Opened outside rest log) :
      Opened inside (.embedded outside rest) log

namespace Stack.Opened

variable {a : Algebra} {α β : Type} {site : Site B a} {log : List (Mark B P)}

theorem of_plain {frame : Frame B P a α β} {rest : Stack B P a β ρ} (plain : frame.cleansUp = false)
    (h : Opened site (.cons frame rest) log) : Opened site rest log := by
  cases h with
  | plain _ h => exact h
  | guarding => cases plain
  | cleaning => cases plain

theorem of_onCancel {finalizer : Program B P a Unit} {rest : Stack B P a α ρ}
    (h : Opened site (.cons (.onCancel finalizer) rest) log) :
    ∃ log' before, Opened site rest log' ∧ Tidy false before ∧
      log = log' ++ before ++ [.entered ⟨site.handle, finalizer⟩] := by
  cases h with
  | plain plain _ => cases plain
  | guarding h k => exact ⟨_, _, h, k, rfl⟩

theorem of_finalizing {level : Nat} {rest : Stack B P a α ρ}
    (h : Opened site (.cons (.finalizing level) rest) log) :
    ∃ log' before c inside, Opened site rest log' ∧ Tidy false before ∧ Tidy true inside ∧
      log = log' ++ before ++ .entered c :: inside ++
        [.guarded (.error .canceled), .started c] := by
  cases h with
  | plain plain _ => cases plain
  | cleaning _ c h k l => exact ⟨_, _, _, _, h, k, l, rfl⟩

theorem of_embedded {b : Algebra} {outside : Site B a} {inside : Site B b} {rest : Stack B P a α ρ}
    (h : Opened inside (.embedded outside rest) log) : Opened outside rest log := by
  cases h with
  | embedded h => exact h

end Stack.Opened

/-- The log of a program in progress: what the frames have logged, and then a tidy log. -/
inductive State.Tidied (s : State B P ρ) : List (Mark B P) → Prop where
  | mk {before top : List (Mark B P)} (opened : s.stack.Opened s.site before)
      (tidy : Tidy s.control.isCanceled top) : Tidied s (before ++ top)

theorem isCancellation_withoutValue {α : Type} (r : Except Interrupted α) :
    isCancellation (withoutValue r) = isCancellation r := by
  rcases r with (failure | _) | x <;> rfl

theorem Frame.mark?_of_plain {a : Algebra} {α β : Type} {frame : Frame B P a α β}
    (plain : frame.cleansUp = false) (r : Except Interrupted Unit) : frame.mark? r = none := by
  cases frame with
  | onCancel finalizer => cases plain
  | finalizing level => cases plain
  | _ => rfl

namespace State

variable {a : Algebra} {α : Type} {s s' : State B P ρ} {sc : Scene B} {log : List (Mark B P)}

/-- Nothing is logged of a step that neither comes to a program with a finalizer nor ends one. -/
theorem marks_of_run {f : Fiber} {calls : Nat} {site : Site B a} {p : Program B P a α}
    {stack : Stack B P a α ρ} (plain : (Control.run p).finalizer? = none) :
    (⟨f, calls, site, .run p, stack⟩ : State B P ρ).marks sc s' = [] := by
  simp [marks, plain]

theorem marks_of_refused {f : Fiber} {calls : Nat} {site : Site B a} {p : Program B P a α}
    {stack : Stack B P a α ρ} (refused : s'.control.isResult = true) :
    (⟨f, calls, site, .run p, stack⟩ : State B P ρ).marks sc s' = [] := by
  cases h : (Control.run p).finalizer? with
  | none => simp [marks, h]
  | some finalizer => simp [marks, h, refused]

theorem marks_of_plain {β : Type} {f : Fiber} {calls : Nat} {site : Site B a}
    {r : Except Interrupted α} {frame : Frame B P a α β} {rest : Stack B P a β ρ}
    (plain : frame.cleansUp = false) :
    (⟨f, calls, site, .give r, .cons frame rest⟩ : State B P ρ).marks sc s' = [] := by
  simp [marks, Stack.mark?, Frame.mark?_of_plain plain]

theorem Tidied.of_eq {before top : List (Mark B P)} (opened : s.stack.Opened s.site before)
    (tidy : Tidy s.control.isCanceled top) (h : log = before ++ top) : s.Tidied log := by
  rw [h]
  exact ⟨opened, tidy⟩

theorem Tidied.quiet {before top : List (Mark B P)} (opened : s'.stack.Opened s'.site before)
    (tidy : Tidy s'.control.isCanceled top) (none : s.marks sc s' = []) :
    s'.Tidied (before ++ top ++ s.marks sc s') :=
  .of_eq opened tidy (by simp [none])

end State

/-- Every flow adds the marks that a tidy log needs. -/
theorem Flows.tidied {s s' : State B P ρ} {found : Bool} {log : List (Mark B P)}
    (flow : Flows s found s') (sc : Scene B) (h : s.Tidied log) :
    s'.Tidied (log ++ s.marks sc s') := by
  obtain @⟨before, top, opened, tidy⟩ := h
  -- three flows take off a frame that has logged something, and move it from `before` to the top
  cases flow with
  | @stay a α f calls calls' site c c' stack busy plain other =>
    refine .quiet opened ?_ ?_
    · have quiet : c.isCanceled = false := Control.isCanceled_of_busy busy
      simpa [quiet, other] using tidy
    · cases c with
      | run p => exact State.marks_of_run plain
      | give r => cases busy
      | block turns code => rfl
  | refused => exact .quiet opened tidy.toCanceled (State.marks_of_refused rfl)
  | refused_below => exact .quiet (.plain rfl opened) tidy.toCanceled (State.marks_of_refused rfl)
  | refused_outside => exact .quiet (opened.of_plain rfl) tidy.toCanceled (State.marks_of_plain rfl)
  | push frame plain noFinalizer =>
    exact .quiet (.plain plain opened) tidy (State.marks_of_run noFinalizer)
  | pass frame plain same =>
    refine .quiet (opened.of_plain plain) ?_ (State.marks_of_plain plain)
    simpa [Control.isCanceled, same] using tidy
  | goOn frame plain other =>
    refine .quiet (opened.of_plain plain) ?_ (State.marks_of_plain plain)
    simpa [Control.isCanceled, other] using tidy
  | guard =>
    refine .of_eq (.guarding opened tidy) .none ?_
    simp [State.marks, Control.finalizer?, Control.isResult]
  | @leave a α f calls site r finalizer rest other =>
    obtain ⟨log, before, below, earlier, rfl⟩ := opened.of_onCancel
    have same : isCancellation (withoutValue r) = false :=
      (isCancellation_withoutValue r).trans other
    have inside : Tidy false top := by simpa [Control.isCanceled, other] using tidy
    refine .of_eq below (earlier.append (.passed ⟨site.handle, finalizer⟩ same inside .none)) ?_
    simp [State.marks, Stack.mark?, Frame.mark?, State.onward]
  | @finalize a α f calls level site finalizer rest =>
    obtain ⟨log, before, below, earlier, rfl⟩ := opened.of_onCancel
    refine .of_eq (.cleaning level ⟨site.handle, finalizer⟩ below earlier tidy) .none ?_
    simp [State.marks, Stack.mark?, Frame.mark?, State.onward, withoutValue, Except.map]
  | @finish a α f calls level site r rest =>
    obtain ⟨log, before, c, inside, below, earlier, canceled, rfl⟩ := opened.of_finalizing
    have cleanup : Tidy (isCancellation (withoutValue r)) top := by
      simpa [Control.isCanceled, isCancellation_withoutValue] using tidy
    refine .of_eq below (earlier.append (.cleaned c canceled cleanup)) ?_
    simp [State.marks, Stack.mark?, Frame.mark?, State.onward, withoutValue, Except.map]
  | embed noFinalizer => exact .quiet (.embedded opened) tidy (State.marks_of_run noFinalizer)
  | unembed => exact .quiet opened.of_embedded tidy rfl

/-! ## The run -/

namespace State

variable {bodies : Bodies B P} {rt : Runtime} {a : Algebra} {f : Fiber} {handle : B.Handle a}
  {p : Program B P a ρ} {fs : Fibers} {s : State B P ρ} {sc₀ sc sc' : Scene B}
  {log : List (Mark B P)} {r : Except Interrupted ρ}

theorem Logs.tidied (run : Logs bodies rt marks (start f handle p fs) sc₀ log s sc) :
    s.Tidied log := by
  refine run.invariant (I := fun log s => s.Tidied log) ?_ ?_
  · exact .of_eq .nil .none rfl
  · intro log t t' sc sc' next tidied
    exact (flows_of_goesTo next).tidied sc tidied

/-- Consider a run of a program from its start to its end, among others that do what they like.  Its
log is tidy.  So each program with a finalizer that is entered ends, and the finalizer is started
right then if the program has ended canceled, and not otherwise; no other finalizers are started.
What is entered before the finalizer has ended is cleaned up by then.  After the finalizer, whatever
it has come to, a cancellation is handed on to the next finalizer or to the end of the finalizer
around or, if there is neither, to the end of the run. -/
theorem cleaned_up (run : Logs bodies rt marks (start f handle p fs) sc₀ log s sc)
    (ended : s.step bodies rt sc = .ended r sc') :
    Tidy (isCancellation r) log ∧
    (∀ c after, .entered c :: after <:+ log → Matched c after) ∧
    log.countP Mark.starts = log.countP Mark.cancels ∧
    ∀ after, .left (.error .canceled) :: after <:+ log →
      after = [] ∧ r = .error .canceled ∨ HandedOn after := by
  have tidy : Tidy (isCancellation r) log := by
    have tidied : s.Tidied log := run.tidied
    obtain ⟨b, f, calls, site, rfl, -⟩ := eq_of_ended ended
    obtain ⟨opened, tidy⟩ := tidied
    cases opened
    exact tidy
  refine ⟨tidy, ?_, tidy.countP_starts, ?_⟩
  · intro c after place
    exact tidy.matched place
  · intro after place
    rcases tidy.handedOn place with ⟨last, canceled⟩ | on
    · exact .inl ⟨last, eq_of_isCancellation canceled⟩
    · exact .inr on

/-- An embedded program is canceled and its finalizer fails; then the finalizer of the program
around it is run, and the run ends canceled. -/
theorem cleaned_up_after_failure :
    let f : Fiber := ⟨.numbered 0, .numbered 0⟩
    let failing : Program .notes .none .largeObject Unit :=
      .bind (.note 1) fun _ => .raise (.message ⟨0, []⟩ "lost")
    let p : Program .notes .none .connection Unit :=
      .onCancel (.embed (b := .largeObject) () (.onCancel .canceled failing)) (.note 2)
    let sc₀ : Scene .notes := .blank {}
    ∃ log s sc sc', Logs Bodies.none .inline marks (start f () p sc₀.fibers) sc₀ log s sc ∧
      s.step Bodies.none .inline sc = .ended (.error .canceled) sc' ∧ sc'.world = [1, 2] ∧
        Tidy true log ∧ log.countP Mark.cancels = 2 ∧ log.countP Mark.starts = 2 := by
  intro f failing p sc₀
  have first : Logs Bodies.none .inline marks (start f () p sc₀.fibers) sc₀ [] _ _ := .begun
  have run := first.after 14
  obtain ⟨tidy, -, starts, -⟩ := cleaned_up run rfl
  exact ⟨_, _, _, _, run, rfl, rfl, tidy, rfl, starts.trans rfl⟩

end State
end Cancelable
