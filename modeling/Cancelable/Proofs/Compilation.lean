import Cancelable.Proofs.Account
import Cancelable.Proofs.Embedding
import Cancelable.Proofs.Mirror

/-!
# Compilation

Two programs that are compiled on one fiber and put together as effects are run one after the other,
each in a fork of its own, and what the first one ends with is handed on outside of both.  The
sequence of the two programs is compiled and run in one fork.  Both come to the same.  A run sets
the mask of its fork back, so the second program begins at the depth zero in either case; and it
cannot tell the forks apart, since a fork has the request of the fiber that it was taken from, and
closures do not hold forks that are taken later.

Main statements: no effect changes the mask of a fiber that was there before
(`Effect.account_keeps`); and to compile a sequence or a changed value is to put together what is
compiled (`Effect.compilation_homomorphic`).
-/

namespace Cancelable

variable {B : Backend} {P : Procedures} {a : Algebra} {α β σ ρ : Type}

/-! ## Runs in scenes that are alike -/

/-- Scenes are alike if they are without the events reported in them. -/
def Likeness.silent {D : Discipline B} {f f' : Fiber} (L : Likeness D f f') :
    Likeness D f f' where
  alike sc sc' := L.alike sc.unreported sc'.unreported
  around := L.around
  around_cons := L.around_cons
  mask_eq alike := by
    have depth := L.mask_eq alike
    exact depth
  host obeys alike := L.host obeys alike
  emit _ _ alike := alike
  setMask n alike := L.setMask n alike
  cancel alike := L.cancel alike

/-- A run that is left alone ends in another fiber as it does in its own, in scenes that are alike,
if the cancellation is requested in both scenes or in none. -/
theorem State.Ends.likened {D : Discipline B} {f f' : Fiber} {L : Likeness D f f'}
    (names : ∀ {l l'}, L.around l l' ↔ l = l')
    (requested : ∀ {sc sc'}, L.alike sc sc' →
      sc.fibers.isRequested f = sc'.fibers.isRequested f')
    {bodies : Bodies B P} {rt : Runtime} (kept : D.Kept bodies) (free : ∀ token, D.token token)
    {n : Nat} {s : State B P ρ} {sc sc' sc₁ : Scene B} {ops : List (Executed B P)} {e : Exit ρ}
    (ends : s.Ends bodies rt n sc ops e sc₁) (own : s.fiber = f) (obeys : s.Obeys D)
    (alike : L.alike sc sc') :
    ∃ sc₁', (s.into f').Ends bodies rt n sc' ops e sc₁' ∧ L.alike sc₁ sc₁' := by
  induction n generalizing s sc sc' ops with
  | zero => exact ends.elim
  | succ n ih =>
    obtain ⟨ops, rfl, after⟩ := ends
    have looks : s.looks sc = (s.into f').looks sc' :=
      looks_into own (requested alike) (L.mask_eq alike)
    have next : Next.Likened L (s.step bodies rt sc) ((s.into f').step bodies rt sc') :=
      step_likened rt L names own kept obeys.control (fun _ _ => obeys.stack.topObeys) alike looks
    -- what goes on in this fiber still keeps the discipline
    have later {t : State B P ρ} {sc₂ : Scene B} (goes : (s.step bodies rt sc).GoesTo t sc₂) :
        t.Obeys D := obeys.goesTo kept free goes
    rw [← executes_into looks]
    generalize e₁ : s.step bodies rt sc = here at after next later
    generalize e₂ : (s.into f').step bodies rt sc' = there at next
    cases next with
    | more t own' alike' =>
      obtain ⟨sc₁', ends', last⟩ := ih after own' (later (.inl rfl)) alike'
      exact ⟨sc₁', ⟨ops, rfl, e₂ ▸ ends'⟩, last⟩
    | waiting t own' alike' =>
      obtain ⟨sc₁', ends', last⟩ := ih after own' (later (.inr rfl)) alike'
      exact ⟨sc₁', ⟨ops, rfl, e₂ ▸ ends'⟩, last⟩
    | ended r alike' =>
      obtain ⟨rfl, rfl, rfl⟩ := after
      exact ⟨_, ⟨[], rfl, e₂ ▸ ⟨rfl, rfl, rfl⟩⟩, alike'⟩
    | panicked panic alike' =>
      obtain ⟨rfl, rfl, rfl⟩ := after
      exact ⟨_, ⟨[], rfl, e₂ ▸ ⟨rfl, rfl, rfl⟩⟩, alike'⟩

/-! ## What effects leave alone -/

/-- To a program in the fiber `f` every scene is like itself, and stays a scene in which no mask was
set but that of `f`. -/
def Likeness.confined (f : Fiber) (fs : Fibers) : Likeness (.free B) f f where
  alike sc sc' := sc = sc' ∧ fs.Touched f (fun _ => False) f sc.fibers
  around := Eq
  around_cons := @Likeness.cons_congr
  mask_eq alike := by rw [alike.1]
  host := by
    rintro sc _ α code _ ⟨rfl, touched⟩
    exact ⟨rfl, rfl, touched.cancelAll nofun⟩
  emit := by
    rintro sc _ l _ h rfl ⟨rfl, touched⟩
    exact ⟨rfl, touched⟩
  setMask := by
    rintro sc _ n ⟨rfl, touched⟩
    exact ⟨rfl, touched.setMask n⟩
  cancel := by
    rintro sc _ ⟨rfl, touched⟩
    exact ⟨rfl, touched.cancel rfl⟩

/-- From one table to the other the masks of fibers that were there are as they were, and all forks
taken since then are unmasked. -/
structure Fibers.Keeps (fs fs' : Fibers) : Prop where
  numbers_le : fs.numbers ≤ fs'.numbers
  mask_eq : ∀ g, fs.Knows g → fs'.mask g = fs.mask g
  unused : ∀ g, ¬fs.Knows g → fs'.mask g = 0

namespace Fibers.Keeps

variable {fs fs' : Fibers}

theorem fork (h : fs.Keeps fs') (F : Fiber) : fs.Keeps (fs'.fork F).2 :=
  ⟨Nat.le_succ_of_le h.numbers_le, h.mask_eq, h.unused⟩

theorem host {sc : Scene B} (h : fs.Keeps sc.fibers) (code : Host B.World α) :
    fs.Keeps (sc.host code).2.fibers where
  numbers_le := by
    rw [Scene.host, numbers_cancelAll]
    exact h.numbers_le
  mask_eq g known := (Scene.mask_of_host rfl g).trans (h.mask_eq g known)
  unused g unknown := (Scene.mask_of_host rfl g).trans (h.unused g unknown)

/-- What touches the mask of a new fork only, and sets it back, keeps all others. -/
theorem touched {F f : Fiber} {others : Fiber → Prop} {fs₁ : Fibers} (h : fs.Keeps fs₁)
    (new : ¬fs.Knows f) (touched : fs₁.Touched F others f fs') (depth : fs'.mask f = 0) :
    fs.Keeps fs' where
  numbers_le := Nat.le_trans h.numbers_le touched.numbers_le
  mask_eq g known := by
    have apart : f.mask ≠ g.mask := fun same => new (known.congr same.symm)
    rw [touched.mask_eq g apart, h.mask_eq g known]
  unused g unknown := by
    by_cases same : f.mask = g.mask
    · rw [← depth, mask, mask, same]
    · rw [touched.mask_eq g same, h.unused g unknown]

end Fibers.Keeps

section Keeps

variable {bodies : Bodies B P} {rt : Runtime} {handle : B.Handle a} {fs : Fibers}
  {sc sc' : Scene B} {ops : List (Executed B P)}

/-- A program that is left alone sets no mask but that of its fiber. -/
theorem Program.account_touches {f : Fiber} {p : Program B P a α} {e : Exit α}
    (tells : p.account bodies rt f handle sc ops e sc') :
    sc.fibers.Touched f (fun _ => False) f sc'.fibers := by
  obtain ⟨n, ends⟩ := tells
  have obeys : (State.start f handle p sc.fibers).Obeys (.free B) := ⟨p.obeys_free, trivial⟩
  obtain ⟨_, -, -, touched⟩ := ends.likened (L := .confined f sc.fibers) Iff.rfl
    (fun alike => by rw [alike.1]) (Discipline.kept_free bodies) (fun _ => trivial) rfl obeys
    ⟨rfl, .refl⟩
  exact touched

theorem Program.account_keeps {f : Fiber} {p : Program B P a α} {e : Exit α}
    (keeps : fs.Keeps sc.fibers) (new : ¬fs.Knows f)
    (tells : p.account bodies rt f handle sc ops e sc') : fs.Keeps sc'.fibers := by
  refine keeps.touched new (account_touches tells) ?_
  obtain ⟨sc₁, -, rfl⟩ := account_iff.mp tells
  rw [Scene.fibers_setMask, Fibers.mask_setMask_self]
  exact keeps.unused f new

@[simp] theorem Exit.fibers_report (e : Exit α) (a : Algebra) (sc : Scene B) :
    (e.report a sc).fibers = sc.fibers := by
  cases e <;> rfl

theorem Program.reporting_keeps {f : Fiber} {p : Program B P a α} {e : Exit α}
    (keeps : fs.Keeps sc.fibers) (new : ¬fs.Knows f)
    (tells : p.reporting bodies rt f handle sc ops e sc') : fs.Keeps sc'.fibers := by
  obtain ⟨sc₁, tells, rfl⟩ := tells
  rw [Exit.fibers_report]
  exact account_keeps keeps new tells

end Keeps

/-- An account keeps the masks of all fibers that were there in a table. -/
def Account.KeepsMasks (fs : Fibers) (account : Account B P α) : Prop :=
  ∀ ⦃sc ops e sc'⦄, fs.Keeps sc.fibers → account sc ops e sc' → fs.Keeps sc'.fibers

namespace Account

variable {fs : Fibers}

theorem keepsMasks_atOnce (e : Exit α) : (atOnce e : Account B P α).KeepsMasks fs := by
  rintro sc _ _ _ keeps ⟨-, -, rfl⟩
  exact keeps

theorem keepsMasks_andThen {first : Account B P α} {next : Except Interrupted α → Account B P β}
    (before : first.KeepsMasks fs) (rest : ∀ r, (next r).KeepsMasks fs) :
    (first.andThen next).KeepsMasks fs := by
  rintro sc _ e sc' keeps ⟨ops₁, e₁, sc₁, ops₂, tells, -, later⟩
  exact onward_of (Q := KeepsMasks fs) keepsMasks_atOnce rest e₁ (before keeps tells) later

theorem keepsMasks_hosting {code : Host B.World σ} {next : σ → Account B P α}
    (rest : ∀ x, (next x).KeepsMasks fs) : (hosting code next).KeepsMasks fs := by
  intro sc ops e sc' keeps tells
  exact onward_of (Q := KeepsMasks fs) keepsMasks_atOnce
    (onValue_of (Q := KeepsMasks fs) keepsMasks_atOnce rest) _ (keeps.host code) tells

end Account

/-- No effect changes the mask of a fiber that was there before. -/
theorem Effect.account_keeps (bodies : Bodies B P) (rt : Runtime) (handle : B.Handle a)
    (e : Effect B P a α) (fs : Fibers) : (e.account bodies rt handle).KeepsMasks fs := by
  refine Account.of_parts (Q := Account.KeepsMasks fs) Account.keepsMasks_atOnce
    Account.keepsMasks_andThen Account.keepsMasks_hosting ?_ e
  intro α p F sc ops e sc' keeps tells
  exact Program.reporting_keeps (keeps.fork (F sc.fibers))
    (Fibers.not_knows_fork keeps.numbers_le) tells

/-! ## Accounts that say the same -/

/-- Whatever an account says from a scene, another one says from another scene, and the scenes that
are left belong together. -/
def Account.Simulates (R : Scene B → Scene B → Prop) (account account' : Account B P α)
    (sc sc' : Scene B) : Prop :=
  ∀ ⦃ops e sc₁⦄, account sc ops e sc₁ → ∃ sc₁', account' sc' ops e sc₁' ∧ R sc₁ sc₁'

/-- Two accounts say the same from two scenes. -/
structure Account.Matches (R : Scene B → Scene B → Prop) (account account' : Account B P α)
    (sc sc' : Scene B) : Prop where
  forth : account.Simulates R account' sc sc'
  back : account'.Simulates (fun sc' sc => R sc sc') account sc' sc

namespace Account

variable {R R₀ : Scene B → Scene B → Prop} {sc sc' : Scene B}

theorem simulates_atOnce (e : Exit α) (same : R sc sc') :
    (atOnce e : Account B P α).Simulates R (atOnce e) sc sc' := by
  rintro _ _ _ ⟨rfl, rfl, rfl⟩
  exact ⟨sc', ⟨rfl, rfl, rfl⟩, same⟩

theorem simulates_onward {next next' : Except Interrupted α → Account B P β}
    (rest : ∀ r, (next r).Simulates R (next' r) sc sc') (e : Exit α) (same : R sc sc') :
    (onward next e).Simulates R (onward next' e) sc sc' := by
  cases e with
  | gives r => exact rest r
  | breaks panic => exact simulates_atOnce _ same

theorem simulates_onValue {next next' : α → Account B P β}
    (rest : ∀ x, (next x).Simulates R (next' x) sc sc') (same : R sc sc')
    (r : Except Interrupted α) : (onValue next r).Simulates R (onValue next' r) sc sc' := by
  cases r with
  | ok x => exact rest x
  | error i => exact simulates_atOnce _ same

theorem simulates_andThen {first first' : Account B P α}
    {next next' : Except Interrupted α → Account B P β}
    (before : first.Simulates R₀ first' sc sc') (weaken : ∀ {sc sc'}, R₀ sc sc' → R sc sc')
    (rest : ∀ {sc sc'} r, R₀ sc sc' → (next r).Simulates R (next' r) sc sc') :
    (first.andThen next).Simulates R (first'.andThen next') sc sc' := by
  rintro _ e sc₂ ⟨ops₁, e₁, sc₁, ops₂, tells, rfl, later⟩
  obtain ⟨sc₁', tells', same⟩ := before tells
  obtain ⟨sc₂', later', last⟩ :=
    simulates_onward (fun r => rest r same) e₁ (weaken same) later
  exact ⟨sc₂', ⟨ops₁, e₁, sc₁', ops₂, tells', rfl, later'⟩, last⟩

/-- Host code does the same in scenes that differ in what was reported only. -/
theorem simulates_hosting {code : Host B.World σ} {next next' : σ → Account B P α}
    (events : sc.unreported = sc'.unreported)
    (same : R (sc.host code).2 (sc'.host code).2)
    (rest : ∀ x, (next x).Simulates R (next' x) (sc.host code).2 (sc'.host code).2) :
    (hosting code next).Simulates R (hosting code next') sc sc' := by
  obtain ⟨fibers, world⟩ := Scene.unreported_eq_iff.mp events
  have exits : (sc.host code).1 = (sc'.host code).1 := by
    simp only [Scene.host, fibers, world]
  have onwards := simulates_onward (simulates_onValue rest same) (.ofThunk (sc.host code).1) same
  intro ops e sc₁ tells
  obtain ⟨sc₁', tells', last⟩ := onwards tells
  refine ⟨sc₁', ?_, last⟩
  rw [exits] at tells'
  exact tells'

end Account

namespace Account.Matches

variable {R R₀ : Scene B → Scene B → Prop} {sc sc' : Scene B}

theorem andThen {first first' : Account B P α} {next next' : α → Account B P β}
    (before : first.Matches R₀ first' sc sc') (weaken : ∀ {sc sc'}, R₀ sc sc' → R sc sc')
    (rest : ∀ {sc sc'} x, R₀ sc sc' → (next x).Matches R (next' x) sc sc') :
    (first.andThen (.onValue next)).Matches R (first'.andThen (.onValue next')) sc sc' where
  forth := simulates_andThen before.forth weaken fun r same =>
    simulates_onValue (fun x => (rest x same).forth) (weaken same) r
  back := simulates_andThen before.back weaken fun r same =>
    simulates_onValue (fun x => (rest x same).back) (weaken same) r

theorem hosting {code : Host B.World σ} {next next' : σ → Account B P α}
    (events : sc.unreported = sc'.unreported)
    (same : R (sc.host code).2 (sc'.host code).2)
    (rest : ∀ x, (next x).Matches R (next' x) (sc.host code).2 (sc'.host code).2) :
    (hosting code next).Matches R (.hosting code next') sc sc' where
  forth := simulates_hosting events same fun x => (rest x).forth
  back := simulates_hosting events.symm same fun x => (rest x).back

theorem atOnce (e : Exit α) (same : R sc sc') :
    (atOnce e : Account B P α).Matches R (.atOnce e) sc sc' :=
  ⟨simulates_atOnce e same, simulates_atOnce e same⟩

end Account.Matches

/-! ## Compiled programs -/

/-- Host code that looks at no fibers but those in a table. -/
abbrev Discipline.knowing (B : Backend) (F : Fiber) (fs : Fibers) : Discipline B :=
  .holding B F fs.Knows fun _ => False

/-- Two scenes show the same of the fibers in a table, and are in the same world. -/
structure Scene.Agrees (fs : Fibers) (sc sc' : Scene B) : Prop where
  world_eq : sc.world = sc'.world
  same : sc.fibers.SameOn fs.Knows sc'.fibers

namespace Scene.Agrees

variable {fs : Fibers} {sc sc' : Scene B}

theorem symm (agrees : sc.Agrees fs sc') : sc'.Agrees fs sc where
  world_eq := agrees.world_eq.symm
  same g known := ⟨(agrees.same g known).1.symm, (agrees.same g known).2.symm⟩

theorem report (agrees : sc.Agrees fs sc') (e : Exit α) (a : Algebra) :
    (e.report a sc).Agrees fs sc' := by
  cases e with
  | gives r => exact ⟨agrees.world_eq, agrees.same⟩
  | breaks panic => exact agrees

end Scene.Agrees

/-- A program does the same in two forks of a fiber, if its closures hold neither. -/
theorem Program.account_elsewhere {F f f' : Fiber} {fs : Fibers} {bodies : Bodies B P}
    {rt : Runtime} {handle : B.Handle a} {p : Program B P a α} {sc sc' : Scene B}
    (known : fs.Knows F) (own : f.request = F.request) (own' : f'.request = F.request)
    (new : ¬fs.Knows f) (new' : ¬fs.Knows f') (kept : (Discipline.knowing B F fs).Kept bodies)
    (obeys : p.Obeys (.knowing B F fs)) (agrees : sc.Agrees fs sc')
    (depth : sc.fibers.mask f = sc'.fibers.mask f') :
    ∀ ⦃ops e sc₁⦄, p.account bodies rt f handle sc ops e sc₁ →
      ∃ sc₁', p.account bodies rt f' handle sc' ops e sc₁' ∧ sc₁.Agrees fs sc₁' := by
  have seen (g : Fiber) (seen : Fibers.Seen F fs.Knows g) : fs.Knows g := by
    rcases seen with rfl | held
    · exact known
    · exact held
  -- neither fork has the mask of a fiber in the table
  have apart (g : Fiber) (h : Fibers.Seen F fs.Knows g) : f.mask = g.mask ↔ f'.mask = g.mask :=
    iff_of_false (fun same => new ((seen g h).congr same.symm))
      fun same => new' ((seen g h).congr same.symm)
  let L : Likeness (.knowing B F fs) f f' := (Likeness.mirrored own own' apart).silent
  have requested {sc sc' : Scene B} (alike : L.alike sc sc') :
      sc.fibers.isRequested f = sc'.fibers.isRequested f' := by
    have same := (alike.same F (.inl rfl)).1
    rw [Fibers.isRequested_congr own, Fibers.isRequested_congr own']
    exact same
  have alike : L.alike sc sc' := ⟨agrees.world_eq, rfl, depth, fun g h => agrees.same g (seen g h)⟩
  rintro ops e sc₁ ⟨n, ends⟩
  obtain ⟨sc₁', ends', last⟩ := ends.likened (L := L) Iff.rfl requested kept (fun _ => trivial) rfl
    ⟨obeys, trivial⟩ alike
  have start : (State.start f handle p sc.fibers).into f' = State.start f' handle p sc'.fibers := by
    simp only [State.start, State.into, depth]
  rw [start] at ends'
  exact ⟨sc₁', ⟨n, ends'⟩, last.world_eq, fun g h => last.same g (.inr h)⟩

/-- Two scenes differ in what was reported only, and the masks of a table are kept in them. -/
structure Scene.Even (fs : Fibers) (sc sc' : Scene B) : Prop where
  unreported_eq : sc.unreported = sc'.unreported
  keeps : fs.Keeps sc.fibers

theorem Exit.unreported_report (e : Exit α) (a : Algebra) (sc : Scene B) :
    (e.report a sc).unreported = sc.unreported := by
  cases e <;> rfl

namespace Scene.Even

variable {fs : Fibers} {sc sc' : Scene B}

theorem agrees (even : sc.Even fs sc') : sc.Agrees fs sc' := by
  obtain ⟨fibers, world⟩ := Scene.unreported_eq_iff.mp even.unreported_eq
  exact ⟨world, fun g _ => ⟨by rw [fibers], by rw [fibers]⟩⟩

theorem host (even : sc.Even fs sc') (code : Host B.World σ) :
    (sc.host code).2.Even fs (sc'.host code).2 := by
  obtain ⟨fibers, world⟩ := Scene.unreported_eq_iff.mp even.unreported_eq
  refine ⟨?_, even.keeps.host code⟩
  rw [Scene.unreported_eq_iff]
  simp only [Scene.host, fibers, world, and_self]

end Scene.Even

section Compiled

variable {bodies : Bodies B P} {rt : Runtime} {handle : B.Handle a} {F f : Fiber} {fs : Fibers}
  {sc sc' : Scene B}

/-- A compiled program is its account in a fork, and a report. -/
theorem Effect.matches_kleisli (F : Fiber) (p : Program B P a α) (keeps : fs.Keeps sc.fibers) :
    Account.Matches (Scene.Even fs) ((Effect.kleisli ⟨p, F⟩).account bodies rt handle)
      (p.account bodies rt (sc.fibers.fork F).1 handle) sc
      { sc with fibers := (sc.fibers.fork F).2 } := by
  have new : ¬fs.Knows (sc.fibers.fork F).1 := Fibers.not_knows_fork keeps.numbers_le
  refine ⟨?_, ?_⟩
  · rintro ops e _ ⟨sc₁, tells, rfl⟩
    refine ⟨sc₁, tells, e.unreported_report a sc₁, ?_⟩
    rw [Exit.fibers_report]
    exact Program.account_keeps (keeps.fork F) new tells
  · intro ops e sc₁ tells
    refine ⟨e.report a sc₁, ⟨sc₁, tells, rfl⟩, e.unreported_report a sc₁, ?_⟩
    rw [Exit.fibers_report]
    exact Program.account_keeps (keeps.fork F) new tells

/-- A compiled program that is run in a fork of its own does what it does in an older one. -/
theorem Effect.matches_kleisli_elsewhere {q : Program B P a α} (known : fs.Knows F)
    (own : f.request = F.request) (new : ¬fs.Knows f)
    (kept : (Discipline.knowing B F fs).Kept bodies) (obeys : q.Obeys (.knowing B F fs))
    (even : sc.Even fs sc') :
    Account.Matches (Scene.Agrees fs) ((Effect.kleisli ⟨q, F⟩).account bodies rt handle)
      (q.account bodies rt f handle) sc sc' := by
  have agrees : Scene.Agrees fs { sc with fibers := (sc.fibers.fork F).2 } sc' :=
    ⟨even.agrees.world_eq, even.agrees.same⟩
  have fork : ¬fs.Knows (sc.fibers.fork F).1 := Fibers.not_knows_fork even.keeps.numbers_le
  have forked : (sc.fibers.fork F).1.request = F.request := rfl
  -- both forks are unmasked
  have depth : (sc.fibers.fork F).2.mask (sc.fibers.fork F).1 = sc'.fibers.mask f := by
    rw [← (Scene.unreported_eq_iff.mp even.unreported_eq).1, even.keeps.unused f new]
    exact even.keeps.unused _ fork
  refine ⟨?_, ?_⟩
  · rintro ops e _ ⟨sc₁, tells, rfl⟩
    obtain ⟨sc₁', tells', last⟩ :=
      q.account_elsewhere known forked own fork new kept obeys agrees depth tells
    exact ⟨sc₁', tells', last.report e a⟩
  · intro ops e sc₁' tells'
    obtain ⟨sc₁, tells, last⟩ :=
      q.account_elsewhere known own forked new fork kept obeys agrees.symm depth.symm tells'
    exact ⟨e.report a sc₁, ⟨sc₁, tells, rfl⟩, last.symm.report e a⟩

/-- A report tells no scenes apart that agree. -/
theorem Effect.matches_reporting {account : Account B P α} {p : Program B P a α}
    (tells : account.Matches (Scene.Agrees fs) (p.account bodies rt (sc.fibers.fork F).1 handle) sc
      { sc with fibers := (sc.fibers.fork F).2 }) :
    account.Matches (Scene.Agrees fs) ((Effect.kleisli ⟨p, F⟩).account bodies rt handle) sc sc where
  forth := by
    intro ops e sc₁ first
    obtain ⟨sc₁', second, last⟩ := tells.forth first
    exact ⟨e.report a sc₁', ⟨sc₁', second, rfl⟩, (last.symm.report e a).symm⟩
  back := by
    rintro ops e _ ⟨sc₁', second, rfl⟩
    obtain ⟨sc₁, first, last⟩ := tells.back second
    exact ⟨sc₁, first, (last.symm.report e a).symm⟩

/-- Two compiled programs one after the other are the compiled sequence. -/
theorem Effect.matches_sequence (known : fs.Knows F) (keeps : fs.Keeps sc.fibers)
    (kept : (Discipline.knowing B F fs).Kept bodies) (p : Program B P a α)
    (code : α → Host B.World σ) (q : α → σ → Program B P a β)
    (obeys : ∀ x y, (q x y).Obeys (.knowing B F fs)) :
    Account.Matches (Scene.Agrees fs)
      ((Effect.andThen (.kleisli ⟨p, F⟩) fun x =>
        .build (code x) fun y => .kleisli ⟨q x y, F⟩).account bodies rt handle)
      ((Effect.kleisli ⟨.bind p fun x => .build (code x) (q x), F⟩).account bodies rt handle)
      sc sc := by
  refine matches_reporting ?_
  rw [Program.account_bind]
  refine (matches_kleisli F p keeps).andThen Scene.Even.agrees fun x even => ?_
  rw [Program.account_build]
  refine .hosting even.unreported_eq (even.host (code x)).agrees fun y => ?_
  exact matches_kleisli_elsewhere known rfl (Fibers.not_knows_fork keeps.numbers_le) kept
    (obeys x y) (even.host (code x))

/-- To change the value of a compiled program is to compile the program with its value changed. -/
theorem Effect.matches_changed (keeps : fs.Keeps sc.fibers) (p : Program B P a α)
    (g : α → Host B.World β) :
    Account.Matches (Scene.Agrees fs) ((Effect.map (.kleisli ⟨p, F⟩) g).account bodies rt handle)
      ((Effect.kleisli ⟨.map p g, F⟩).account bodies rt handle) sc sc := by
  refine matches_reporting ?_
  rw [Program.account_map]
  refine (matches_kleisli F p keeps).andThen Scene.Even.agrees fun x even => ?_
  have changed := (even.host (g x)).agrees
  exact .hosting even.unreported_eq changed fun y => .atOnce _ changed

end Compiled

/-! ## Compilation is a homomorphism -/

namespace Fibers

variable {F : Fiber} {fs fs₁ fs₂ : Fibers}

/-- A table keeps itself, if no fork is masked that has not been taken. -/
theorem Keeps.refl (unused : ∀ g, ¬fs.Knows g → fs.mask g = 0) : fs.Keeps fs :=
  ⟨Nat.le_refl _, fun _ _ => rfl, unused⟩

/-- Tables that show the same of all fibers in a table hold the same requests. -/
theorem SameOn.requests_eq (known : fs.Knows F) (same : fs₁.SameOn fs.Knows fs₂) :
    fs₁.requests = fs₂.requests :=
  Std.ExtTreeSet.ext_contains fun k =>
    have shares : fs.Knows ⟨k, F.mask⟩ := known.congr rfl
    (same ⟨k, F.mask⟩ shares).1

end Fibers

namespace Effect

/-- Two effects come to the same from a scene: one of them comes to an end with some bound exactly
if the other does; it is the same end, after the same operations in the same order; the world and
the requests are the same then; and both have left the mask of every fiber alone that was there. -/
structure RunsAs (bodies : Bodies B P) (rt : Runtime) (handle : B.Handle a) (sc : Scene B)
    (first second : Effect B P a α) : Prop where
  ends_iff : ∀ ending, ending ≠ .exhausted →
    ((∃ bound sc₁, first.run ⟨bodies, rt, bound⟩ handle sc = (ending, sc₁)) ↔
      ∃ bound sc₂, second.run ⟨bodies, rt, bound⟩ handle sc = (ending, sc₂))
  same : ∀ bound bound' ending ending' sc₁ sc₂,
    first.run ⟨bodies, rt, bound⟩ handle sc = (ending, sc₁) → ending ≠ .exhausted →
    second.run ⟨bodies, rt, bound'⟩ handle sc = (ending', sc₂) → ending' ≠ .exhausted →
      ending = ending' ∧
      (∃ ops exit, exit.ending = ending ∧ first.account bodies rt handle sc ops exit sc₁ ∧
        second.account bodies rt handle sc ops exit sc₂) ∧
      sc₁.world = sc₂.world ∧ sc₁.fibers.requests = sc₂.fibers.requests ∧
      ∀ g, sc.fibers.Knows g → sc₁.fibers.mask g = sc.fibers.mask g ∧
        sc₂.fibers.mask g = sc.fibers.mask g

variable {bodies : Bodies B P} {rt : Runtime} {handle : B.Handle a} {sc : Scene B}
  {first second : Effect B P a α} {F : Fiber}

/-- Effects come to the same whose accounts say the same. -/
theorem runsAs_of_matches (known : sc.fibers.Knows F) (keeps : sc.fibers.Keeps sc.fibers)
    (tells : Account.Matches (Scene.Agrees sc.fibers) (first.account bodies rt handle)
      (second.account bodies rt handle) sc sc) :
    first.RunsAs bodies rt handle sc second where
  ends_iff ending notAll := by
    constructor
    · rintro ⟨bound, sc₁, run⟩
      obtain ⟨ops, exit, ended, here⟩ := (run_iff_account notAll).mp ⟨bound, run⟩
      obtain ⟨sc₂, there, -⟩ := tells.forth here
      obtain ⟨bound', run'⟩ := (run_iff_account notAll).mpr ⟨ops, exit, ended, there⟩
      exact ⟨bound', sc₂, run'⟩
    · rintro ⟨bound, sc₂, run⟩
      obtain ⟨ops, exit, ended, there⟩ := (run_iff_account notAll).mp ⟨bound, run⟩
      obtain ⟨sc₁, here, -⟩ := tells.back there
      obtain ⟨bound', run'⟩ := (run_iff_account notAll).mpr ⟨ops, exit, ended, here⟩
      exact ⟨bound', sc₁, run'⟩
  same := by
    intro bound bound' ending ending' sc₁ sc₂ run notAll run' notAll'
    obtain ⟨ops, exit, ended, here⟩ := (run_iff_account notAll).mp ⟨bound, run⟩
    obtain ⟨ops', exit', ended', there⟩ := (run_iff_account notAll').mp ⟨bound', run'⟩
    -- the second account says what matches the first one, and nothing else
    obtain ⟨sc₂', matched, agrees⟩ := tells.forth here
    obtain ⟨rfl, rfl, rfl⟩ := second.account_unique bodies rt handle matched there
    refine ⟨ended.symm.trans ended', ⟨ops, exit, ended, here, there⟩, agrees.world_eq,
      agrees.same.requests_eq known, fun g known => ?_⟩
    exact ⟨(first.account_keeps bodies rt handle sc.fibers keeps here).mask_eq g known,
      (second.account_keeps bodies rt handle sc.fibers keeps there).mask_eq g known⟩

/-- Compilation is a homomorphism into effects.  Let programs be compiled on a fiber that is in the
table, whether or not its cancellation is requested, and let no fork be masked that has not been
taken.  To run one compiled program and then another, which host code makes of the value of the
first one, comes to the same as to compile the sequence of the two, if the second program looks at
no fibers but those in the table.  To change the value of a compiled program comes to the same as to
compile the program with its value changed. -/
theorem compilation_homomorphic (rt : Runtime) (handle : B.Handle a)
    (known : sc.fibers.Knows F) (unused : ∀ g, ¬sc.fibers.Knows g → sc.fibers.mask g = 0)
    (kept : (Discipline.knowing B F sc.fibers).Kept bodies) (p : Program B P a α) :
    (∀ {σ β : Type} (code : α → Host B.World σ) (q : α → σ → Program B P a β),
      (∀ x y, (q x y).Obeys (.knowing B F sc.fibers)) →
      RunsAs bodies rt handle sc
        (.andThen (.kleisli ⟨p, F⟩) fun x => .build (code x) fun y => .kleisli ⟨q x y, F⟩)
        (.kleisli ⟨.bind p fun x => .build (code x) (q x), F⟩)) ∧
    (∀ {β : Type} (g : α → Host B.World β),
      RunsAs bodies rt handle sc (.map (.kleisli ⟨p, F⟩) g) (.kleisli ⟨.map p g, F⟩)) := by
  have keeps : sc.fibers.Keeps sc.fibers := .refl unused
  constructor
  · intro σ β code q obeys
    exact runsAs_of_matches known keeps (matches_sequence known keeps kept p code q obeys)
  · intro β g
    exact runsAs_of_matches known keeps (matches_changed keeps p g)

/-- The first program requests the cancellation during a blocking call, its last operation, and ends
with a value all the same.  The second one is refused its operation, in a fork of its own as in that
of the first. -/
theorem compilation_homomorphic_when_requested :
    let F : Fiber := ({} : Fibers).fresh.1
    let sc : Scene .notes := .blank ({} : Fibers).fresh.2
    let p : Program .notes .none .largeObject Unit :=
      .bind (.note 0) fun () => .suspend .blocking fun _ written => ⟨.ok (.ok ()), written, [F]⟩
    let apart : Effect .notes .none .largeObject Unit :=
      .andThen (.kleisli ⟨p, F⟩) fun () => .build (Host.pure ()) fun () => .kleisli ⟨.note 1, F⟩
    let together : Effect .notes .none .largeObject Unit :=
      .kleisli ⟨.bind p fun () => .build (Host.pure ()) fun () => .note 1, F⟩
    ∃ sc₂, together.run ⟨Bodies.none, .stepped, 20⟩ () sc = (.outcome .canceled, sc₂) ∧
      ∃ bound sc₁, apart.run ⟨Bodies.none, .stepped, bound⟩ () sc = (.outcome .canceled, sc₁) ∧
        sc₁.world = [0] ∧ sc₁.fibers.requests = sc₂.fibers.requests ∧ sc₁.fibers.mask F = 0 ∧
        ∃ ops exit, apart.account Bodies.none .stepped () sc ops exit sc₁ ∧
          together.account Bodies.none .stepped () sc ops exit sc₂ := by
  intro F sc p apart together
  have known : sc.fibers.Knows F := by
    rintro n ⟨⟩
    exact Nat.zero_lt_one
  have host {α : Type} (f : List Nat → α × List Nat) :
      (Discipline.knowing .notes F sc.fibers).code (Host.update f) :=
    ⟨fun _ _ _ _ => rfl, fun _ _ _ raised => nomatch raised⟩
  have kept : (Discipline.knowing .notes F sc.fibers).Kept (P := .none) Bodies.none :=
    ⟨fun _ _ => ⟨fun _ _ _ _ => rfl, nofun⟩, ⟨fun _ _ _ _ => rfl, nofun⟩,
      ⟨fun _ _ _ _ => rfl, nofun⟩, nofun⟩
  have same : apart.RunsAs Bodies.none .stepped () sc together :=
    (compilation_homomorphic .stepped () known (fun _ _ => rfl) kept p).1 (fun () => Host.pure ())
      (fun () () => .note 1) fun () () => host _
  have run : together.run ⟨Bodies.none, .stepped, 20⟩ () sc = (.outcome .canceled, _) := rfl
  have ended : (.outcome .canceled : Ending Unit) ≠ .exhausted := nofun
  obtain ⟨bound, sc₁, run'⟩ := (same.ends_iff _ ended).mpr ⟨20, _, run⟩
  obtain ⟨-, ⟨ops, exit, -, accounts⟩, world, requests, masks⟩ :=
    same.same bound 20 _ _ sc₁ _ run' ended run ended
  exact ⟨_, run, bound, sc₁, run', world, requests, (masks F known).1, ops, exit, accounts⟩

end Effect
end Cancelable
