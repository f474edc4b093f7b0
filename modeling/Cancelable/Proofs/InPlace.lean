import Cancelable.Proofs.Frame

/-!
# Changes made in place

Work on the bench that stops takes its changes back.  A resource that is changed at once cannot do
that: what has been changed before an operation fails stays changed.  What operations do is written
for either kind of work, and here it is run in the second way.

That makes no difference, because no operation stops after it has changed something.  So work is put
together by two rules only: if the first part does no more than look at the bench the rest may stop,
and if the first part makes changes the rest does not stop.

Main statements: the two rules (`Agrees.bind_of_looks`, `Agrees.bind_of_succeeds`), that what every
operation does keeps to them (`Bench.agrees_act`), and that performing an operation in place comes
to the same (`Bench.performInPlace_eq`).
-/

namespace Cancelable
namespace Simulation

/-! ## Work in place -/

/-- Work each change of which is made at once, and stays if the work is stopped later. -/
abbrev InPlace (α : Type) : Type :=
  ExceptT Stop (StateM Bench) α

/-- What work in place comes to: its value, or why it has been stopped, and the bench it leaves. -/
def InPlace.run {α : Type} (v : InPlace α) (b : Bench) : Except Stop α × Bench :=
  StateT.run (ExceptT.run v) b

/-- What work comes to that takes back its changes when it is stopped. -/
def Work.runBack {α : Type} (w : Work α) (b : Bench) : Except Stop α × Bench :=
  match w.run b with
  | .ok (x, c) => (.ok x, c)
  | .error stop => (.error stop, b)

variable {α β : Type}

/-- Work that comes to the same in place: when it is stopped there is nothing to take back. -/
def Agrees (w : Work α) (v : InPlace α) : Prop :=
  ∀ b, v.run b = w.runBack b

namespace Work

/-- Work that changes nothing. -/
def Looks (w : Work α) : Prop :=
  ∀ ⦃b x c⦄, w.run b = .ok (x, c) → c = b

/-- Work that is never stopped. -/
def Succeeds (w : Work α) : Prop :=
  ∀ b, ∃ x c, w.run b = .ok (x, c)

theorem runBack_of_ok {w : Work α} {b c : Bench} {x : α} (ran : w.run b = .ok (x, c)) :
    w.runBack b = (.ok x, c) := by
  simp [runBack, ran]

theorem runBack_of_error {w : Work α} {b : Bench} {stop : Stop} (ran : w.run b = .error stop) :
    w.runBack b = (.error stop, b) := by
  simp [runBack, ran]

theorem run_bind_of_ok {w : Work α} {k : α → Work β} {b c : Bench} {x : α}
    (ran : w.run b = .ok (x, c)) : (w >>= k).run b = (k x).run c := by
  rw [StateT.run_bind, ran]
  rfl

theorem run_bind_of_error {w : Work α} {k : α → Work β} {b : Bench} {stop : Stop}
    (ran : w.run b = .error stop) : (w >>= k).run b = .error stop := by
  rw [StateT.run_bind, ran]
  rfl

end Work

namespace InPlace

theorem run_bind (v : InPlace α) (l : α → InPlace β) (b : Bench) :
    (v >>= l).run b =
      match v.run b with
      | (.ok x, c) => (l x).run c
      | (.error stop, c) => (.error stop, c) := by
  simp only [run, ExceptT.run_bind, StateT.run_bind]
  cases StateT.run (ExceptT.run v) b with
  | mk answer c =>
    cases answer with
    | ok x => rfl
    | error stop => rfl

end InPlace

/-! ## The two rules -/

section Rules

variable {w : Work α} {v : InPlace α} {k : α → Work β} {l : α → InPlace β}

/-- Work whose first part is stopped, if it agrees with work in place. -/
theorem Agrees.run_bind_of_error {b : Bench} {stop : Stop} (first : Agrees w v)
    (ran : w.run b = .error stop) : (v >>= l).run b = (w >>= k).runBack b := by
  have stopped : v.run b = (.error stop, b) := (first b).trans (Work.runBack_of_error ran)
  rw [InPlace.run_bind, stopped, Work.runBack_of_error (Work.run_bind_of_error ran)]

/-- Work that does no more than look at the bench can be followed by work that may be stopped. -/
theorem Agrees.bind_of_looks (first : Agrees w v) (looks : w.Looks)
    (rest : ∀ x, Agrees (k x) (l x)) : Agrees (w >>= k) (v >>= l) := by
  intro b
  cases ran : w.run b with
  | error stop => exact first.run_bind_of_error ran
  | ok p =>
    obtain ⟨x, c⟩ := p
    obtain rfl : c = b := looks ran
    have done : v.run c = (.ok x, c) := (first c).trans (Work.runBack_of_ok ran)
    calc
      (v >>= l).run c = (l x).run c := by rw [InPlace.run_bind, done]
      _ = (k x).runBack c := rest x c
      _ = (w >>= k).runBack c := by simp only [Work.runBack, Work.run_bind_of_ok ran]

/-- Work that makes changes can be followed by work that is never stopped. -/
theorem Agrees.bind_of_succeeds (first : Agrees w v) (succeeds : ∀ x, (k x).Succeeds)
    (rest : ∀ x, Agrees (k x) (l x)) : Agrees (w >>= k) (v >>= l) := by
  intro b
  cases ran : w.run b with
  | error stop => exact first.run_bind_of_error ran
  | ok p =>
    obtain ⟨x, c⟩ := p
    obtain ⟨y, d, ends⟩ := succeeds x c
    have done : v.run b = (.ok x, c) := (first b).trans (Work.runBack_of_ok ran)
    calc
      (v >>= l).run b = (l x).run c := by rw [InPlace.run_bind, done]
      _ = (.ok y, d) := (rest x c).trans (Work.runBack_of_ok ends)
      _ = (w >>= k).runBack b := by
        rw [Work.runBack_of_ok ((Work.run_bind_of_ok ran).trans ends)]

end Rules

/-! ## What work is made of -/

theorem agrees_pure (x : α) : Agrees (pure x) (pure x) := fun _ => rfl

theorem agrees_get : Agrees get get := fun _ => rfl

theorem agrees_modify (f : Bench → Bench) : Agrees (modify f) (modify f) := fun _ => rfl

theorem agrees_modifyGet (f : Bench → α × Bench) : Agrees (modifyGet f) (modifyGet f) :=
  fun _ => rfl

theorem agrees_lift (x : Except Stop α) : Agrees (liftM x) (liftM x) := by
  intro b
  cases x with
  | error stop => rfl
  | ok x => rfl

theorem agrees_require (condition : Bool) (why : Rejection) :
    Agrees (Work.require condition why) (Work.require condition why) := by
  cases condition with
  | false => exact agrees_lift _
  | true => exact agrees_pure ()

theorem looks_get : Work.Looks get := by
  intro b x c ran
  cases ran
  rfl

theorem looks_lift (x : Except Stop α) : Work.Looks (liftM x) := by
  intro b y c ran
  cases x with
  | error stop => cases ran
  | ok x =>
    cases ran
    rfl

theorem looks_require (condition : Bool) (why : Rejection) :
    Work.Looks (Work.require condition why) := by
  cases condition with
  | false => exact looks_lift _
  | true =>
    intro b x c ran
    cases ran
    rfl

theorem succeeds_pure (x : α) : Work.Succeeds (pure x) := fun b => ⟨x, b, rfl⟩

theorem succeeds_modify (f : Bench → Bench) : Work.Succeeds (modify f) := fun b => ⟨(), f b, rfl⟩

/-- Work that goes on by what it sees on the bench. -/
theorem agrees_get_bind {k : Bench → Work β} {l : Bench → InPlace β}
    (rest : ∀ b, Agrees (k b) (l b)) : Agrees (get >>= k) (get >>= l) :=
  agrees_get.bind_of_looks looks_get rest

theorem agrees_require_bind {condition : Bool} {why : Rejection} {k : Unit → Work β}
    {l : Unit → InPlace β} (rest : Agrees (k ()) (l ())) :
    Agrees (Work.require condition why >>= k) (Work.require condition why >>= l) :=
  (agrees_require condition why).bind_of_looks (looks_require condition why) fun _ => rest

theorem agrees_read (f : Bench → α) :
    Agrees (do return f (← get)) (do return f (← get)) :=
  agrees_get_bind fun b => agrees_pure (f b)

/-! ## What operations do -/

theorem agrees_fieldFormat (fields field : Int) :
    Agrees (fieldFormat fields field) (fieldFormat fields field) :=
  agrees_require_bind (agrees_pure 0)

theorem CopyIn.agrees_act (r : Ref .copyIn) (o : CopyIn.Op) : Agrees (act r o) (act r o) := by
  cases o with
  | writeRow | cancel => exact agrees_modify _
  | flush | format => exact agrees_pure _
  | finish =>
    -- the mark is changed first, but counting the rows does not fail
    refine (agrees_modify _).bind_of_succeeds ?_ fun _ => agrees_read _
    exact fun _ b => ⟨_, b, rfl⟩
  | fieldCount | handledRowCount | isActive => exact agrees_read _
  | fieldFormat field => exact agrees_get_bind fun b => agrees_fieldFormat _ field

theorem CopyOut.agrees_act (r : Ref .copyOut) (o : CopyOut.Op) : Agrees (act r o) (act r o) := by
  cases o with
  | readRow =>
    refine agrees_get_bind fun b => ?_
    exact (agrees_modify _).bind_of_succeeds (fun _ => succeeds_pure _) fun _ => agrees_pure _
  | cancel => exact agrees_modify _
  | format => exact agrees_pure _
  | fieldCount | handledRowCount | isActive => exact agrees_read _
  | fieldFormat field => exact agrees_get_bind fun b => agrees_fieldFormat _ field

theorem CopyManager.agrees_act (r : Ref .copyManager) (o : CopyManager.Op) :
    Agrees (act r o) (act r o) := by
  cases o with
  | copyIn | copyOut => exact agrees_modifyGet _
  | copyInBytes => exact agrees_pure _
  | copyOutBytes => exact agrees_read _

theorem Fastpath.agrees_lookup (r : Ref .fastpath) (name : String) :
    Agrees (lookup r name) (lookup r name) := by
  refine agrees_get_bind fun b => ?_
  cases (b.fastpaths.get r.index).functions[name]? with
  | some oid => exact agrees_pure oid
  | none => exact agrees_lift _

theorem Fastpath.looks_lookup (r : Ref .fastpath) (name : String) :
    Work.Looks (lookup r name) := by
  intro b oid c ran
  rw [run_lookup] at ran
  cases found : (b.fastpaths.get r.index).functions[name]? with
  | some known =>
    rw [found] at ran
    cases ran
    rfl
  | none =>
    rw [found] at ran
    cases ran

theorem Fastpath.agrees_lookup_bind {r : Ref .fastpath} {name : String} {k : Int → Work β}
    {l : Int → InPlace β} (rest : ∀ oid, Agrees (k oid) (l oid)) :
    Agrees (lookup r name >>= k) (lookup r name >>= l) :=
  (agrees_lookup r name).bind_of_looks (looks_lookup r name) rest

theorem Fastpath.agrees_act (r : Ref .fastpath) (o : Fastpath.Op) : Agrees (act r o) (act r o) := by
  cases o with
  | addFunction => exact agrees_modify _
  | functionId name => exact agrees_lookup r name
  | call fnid args =>
    refine agrees_get_bind fun b => ?_
    exact agrees_require_bind (agrees_pure _)
  | getInteger name args =>
    refine agrees_lookup_bind fun oid => ?_
    refine (agrees_lift _).bind_of_looks (looks_lift _) fun total => ?_
    exact agrees_require_bind (agrees_pure _)
  | getLong name args | getOid name args => exact agrees_lookup_bind fun oid => agrees_lift _
  | getData name args => exact agrees_lookup_bind fun oid => agrees_pure _

theorem LargeObject.agrees_act (r : Ref .largeObject) (o : LargeObject.Op) :
    Agrees (act r o) (act r o) := by
  cases o with
  | oid | tell | size => exact agrees_read _
  | read len =>
    refine agrees_get_bind fun b => ?_
    exact (agrees_modify _).bind_of_succeeds (fun _ => succeeds_pure _) fun _ => agrees_pure _
  | write patch =>
    -- the bytes are replaced before the descriptor is moved, which cannot fail any more
    refine agrees_get_bind fun b => ?_
    exact (agrees_modify _).bind_of_succeeds (fun _ => succeeds_modify _) fun _ => agrees_modify _
  | seek offset whence =>
    -- both tests come before the descriptor is moved
    refine agrees_get_bind fun b => ?_
    refine (agrees_lift _).bind_of_looks (looks_lift _) fun target => ?_
    exact agrees_require_bind (agrees_modify _)
  | truncate len =>
    refine agrees_get_bind fun b => ?_
    exact agrees_require_bind (agrees_modify _)
  | copy => exact agrees_get_bind fun b => agrees_modifyGet _
  | close => exact agrees_modify _

theorem Directory.agrees_act (r : Ref .directory) (o : Directory.Op) :
    Agrees (act r o) (act r o) := by
  cases o with
  | create mode =>
    refine (agrees_modifyGet _).bind_of_succeeds ?_ fun contents => ?_
    · exact fun _ b => ⟨_, _, rfl⟩
    · refine agrees_get_bind fun b => ?_
      exact (agrees_modify _).bind_of_succeeds (fun _ => succeeds_pure _) fun _ => agrees_pure _
  | openObject oid mode =>
    refine agrees_get_bind fun b => ?_
    cases found : (b.directories.get r.index).objects[oid]? with
    | some contents =>
      simp only [found]
      exact agrees_modifyGet _
    | none =>
      simp only [found]
      exact agrees_lift _
  | unlink oid =>
    refine agrees_get_bind fun b => ?_
    exact agrees_require_bind (agrees_modify _)

theorem Connection.agrees_act (r : Ref .connection) (o : Connection.Op) :
    Agrees (act r o) (act r o) := by
  cases o with
  | backendPid | copyApi | fastpathApi | largeObjectApi | prepareThreshold => exact agrees_read _
  | notifications =>
    refine agrees_get_bind fun b => ?_
    exact (agrees_modify _).bind_of_succeeds (fun _ => succeeds_pure _) fun _ => agrees_pure _
  | escapeIdentifier | escapeLiteral | parameterStatus | cancelQuery => exact agrees_pure _
  | setPrepareThreshold => exact agrees_modify _

/-! ## Performing in place -/

namespace Bench

/-- No operation is stopped after it has changed something. -/
theorem agrees_act {a : Algebra} (r : Ref a) (o : Op a) : Agrees (work r o) (act r o) := by
  cases a with
  | connection => exact Connection.agrees_act r o
  | copyIn => exact CopyIn.agrees_act r o
  | copyOut => exact CopyOut.agrees_act r o
  | copyManager => exact CopyManager.agrees_act r o
  | fastpath => exact Fastpath.agrees_act r o
  | largeObject => exact LargeObject.agrees_act r o
  | directory => exact Directory.agrees_act r o

/-- Perform an operation with each of its changes made at once. -/
def performInPlace (b : Bench) {a : Algebra} (r : Ref a) (o : Op a) :
    Except Stop (Op.Answer Ref o) × Bench :=
  match b.turnsAway r o with
  | some why => (.error (.rejected why), b)
  | none =>
    match b.hit (b.probeOf r) o.key o.detail with
    | (some failure, b) => (.error (.fault failure), b)
    | (none, b) => InPlace.run (act r o) b

/-- There is never anything to take back. -/
theorem performInPlace_eq (b : Bench) {a : Algebra} (r : Ref a) (o : Op a) :
    b.performInPlace r o = b.perform r o := by
  unfold performInPlace perform
  cases b.turnsAway r o with
  | some why => rfl
  | none =>
    cases b.hit (b.probeOf r) o.key o.detail with
    | mk failure? c =>
      cases failure? with
      | some failure => rfl
      | none =>
        have done := agrees_act r o c
        cases ran : (work r o).run c with
        | error stop => simpa [ran, Work.runBack] using done
        | ok p => simpa [ran, Work.runBack] using done

end Bench
end Simulation
end Cancelable
