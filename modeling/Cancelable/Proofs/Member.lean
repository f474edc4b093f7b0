import Cancelable.Effect
import Cancelable.Proofs.Twins

/-!
# Runs in forks

A run takes a fork of a fiber, or was given one before, and goes on in it step by step until it is
over or dropped.  It has a handle and a world to itself; the table of fibers is all that it shares.
What was to be seen of it is written down.

What the closures of a run may look at is given by the fibers that they hold.  A run whose closures
hold no fiber of another one touches nothing that others look at but the request of the fiber that
all forks were taken from.

Main statements: a turn of a run, be it the first one of a compiled program, is a row of its steps
(`Member.steps_of_turn`, `Member.steps_of_kleisli`), and a step touches the fibers as it may
(`State.step_touches`).
-/

namespace Cancelable

variable {B : Backend} {P : Procedures} {ρ ι : Type}

/-! ## Runs -/

/-- A run that is to be made.  Its fork may have been taken before; otherwise the run takes one when
it begins, as the runs of compiled programs do. -/
structure Job (B : Backend) (P : Procedures) : Type 1 where
  {a : Algebra}
  {ρ : Type}
  handle : B.Handle a
  program : Program B P a ρ
  fork? : Option Fiber := none

/-- A run of a compiled program. -/
def Kleisli.job {a : Algebra} {α : Type} (k : Kleisli B P a α) (handle : B.Handle a) : Job B P where
  handle := handle
  program := k.program

/-- How far a run has come. -/
inductive Stage (B : Backend) (P : Procedures) (ρ : Type) : Type 1 where
  | unstarted
  | going (s : State B P ρ)
  | ended (ending : Ending ρ)
  | dropped

/-- What there is to see of one thing that a run does: whether the cancellation was requested
before, what was carried out, and the mask depth of the fork afterwards. -/
structure Moment (B : Backend) (P : Procedures) : Type 1 where
  requested : Bool
  executed : List (Executed B P)
  mask : Nat

/-- A run, with the world that it has to itself. -/
structure Member (B : Backend) (P : Procedures) (ρ : Type) : Type 1 where
  fork? : Option Fiber
  world : B.World
  events : List Event := []
  stage : Stage B P ρ := .unstarted
  history : List (Moment B P) := []

/-- The stage that a step leads to. -/
def Next.stage : Next B P ρ → Stage B P ρ
  | .more s _ => .going s
  | .waiting s _ => .going s
  | .ended r _ => .ended (.outcome (.ofExcept r))
  | .panicked panic _ => .ended (.panicked panic)

theorem Next.stage_ne_unstarted (next : Next B P ρ) : next.stage ≠ .unstarted := by
  cases next <;> simp [stage]

theorem Next.goesTo_of_stage {s : State B P ρ} {next : Next B P ρ}
    (goes : next.stage = .going s) : next.GoesTo s next.scene := by
  cases next with
  | more t sc =>
    cases goes
    exact .inl rfl
  | waiting t sc =>
    cases goes
    exact .inr rfl
  | ended r sc => cases goes
  | panicked panic sc => cases goes

/-- The scene that a step leads to.  The end of a run is reported outside of all programs. -/
def Next.reported (a : Algebra) : Next B P ρ → Scene B
  | .ended r sc => sc.emit (.ended a (r.map fun _ => ())) []
  | next => next.scene

theorem Next.fibers_reported (a : Algebra) (next : Next B P ρ) :
    (next.reported a).fibers = next.scene.fibers := by
  cases next <;> rfl

namespace Member

/-- What a run sees of the table that all share, and of its own world. -/
def scene (m : Member B P ρ) (fs : Fibers) : Scene B :=
  ⟨fs, m.world, m.events⟩

/-- Come to a stage in the fiber `f`, and write down what there was to see. -/
def reach (m : Member B P ρ) (f : Fiber) (requested : Bool) (executed : List (Executed B P))
    (stage : Stage B P ρ) (sc : Scene B) : Member B P ρ × Fibers :=
  let moment : Moment B P := ⟨requested, executed, sc.fibers.mask f⟩
  (⟨some f, sc.world, sc.events, stage, m.history ++ [moment]⟩, sc.fibers)

section Doing

variable (bodies : Bodies B P) (rt : Runtime) (F : Fiber)

/-- Begin a run in a fiber. -/
def begin (job : Job B P) (m : Member B P job.ρ) (requested : Bool) (f : Fiber) (fs : Fibers) :
    Member B P job.ρ × Fibers :=
  m.reach f requested [] (.going (.start f job.handle job.program fs)) (m.scene fs)

/-- Take a step.  The first one only begins the run, in its fork of the fiber `F`. -/
def step (job : Job B P) (m : Member B P job.ρ) (fs : Fibers) : Member B P job.ρ × Fibers :=
  match m.stage with
  | .unstarted =>
    match m.fork? with
    | some f => m.begin job (fs.isRequested F) f fs
    | none => m.begin job (fs.isRequested F) (fs.fork F).1 (fs.fork F).2
  | .going s =>
    let next := s.step bodies rt (m.scene fs)
    m.reach s.fiber (fs.isRequested F) (s.executes (m.scene fs)) next.stage (next.reported job.a)
  | .ended _ => (m, fs)
  | .dropped => (m, fs)

/-- Drop the run, if it is not over. -/
def drop (m : Member B P ρ) (fs : Fibers) : Member B P ρ × Fibers :=
  match m.stage with
  | .unstarted => ({ m with stage := .dropped }, fs)
  | .going s => m.reach s.fiber (fs.isRequested F) [] .dropped (s.abandon (m.scene fs))
  | .ended _ => (m, fs)
  | .dropped => (m, fs)

/-- Take a number of steps. -/
def steps (job : Job B P) : Nat → Member B P job.ρ → Fibers → Member B P job.ρ × Fibers
  | 0, m, fs => (m, fs)
  | n + 1, m, fs => steps job n (m.step bodies rt F job fs).1 (m.step bodies rt F job fs).2

end Doing

end Member

/-! ## Turns are rows of steps -/

/-- The stage that a turn of a run leads to, unless its bound is used up. -/
def Turn.stage? {a : Algebra} : Turn (Run B P a ρ) ρ → Option (Stage B P ρ)
  | .pending r => some (.going r.state)
  | .ended r => some (.ended (.outcome (.ofExcept r)))
  | .panicked panic => some (.ended (.panicked panic))
  | .exhausted => none

/-- A turn begins with a step. -/
theorem Run.turn_succ {a : Algebra} (bodies : Bodies B P) (rt : Runtime) (bound : Nat)
    (s : State B P ρ) (sc : Scene B) :
    (⟨s⟩ : Run B P a ρ).turn ⟨bodies, rt, bound + 1⟩ sc =
      match s.step bodies rt sc with
      | .more s sc => (⟨s⟩ : Run B P a ρ).turn ⟨bodies, rt, bound⟩ sc
      | .waiting s sc => (.pending ⟨s⟩, sc)
      | .ended r sc => (.ended r, sc.emit (.ended a (r.map fun _ => ())) [])
      | .panicked panic sc => (.panicked panic, sc) := by
  unfold Run.turn
  rw [State.turn]
  cases s.step bodies rt sc <;> rfl

namespace Member

theorem step_of_going (bodies : Bodies B P) (rt : Runtime) (F : Fiber) (fs : Fibers)
    {job : Job B P} {m : Member B P job.ρ} {s : State B P job.ρ} (going : m.stage = .going s) :
    m.step bodies rt F job fs =
      m.reach s.fiber (fs.isRequested F) (s.executes (m.scene fs))
        (s.step bodies rt (m.scene fs)).stage ((s.step bodies rt (m.scene fs)).reported job.a) := by
  simp only [step, going]

theorem step_of_unstarted (bodies : Bodies B P) (rt : Runtime) (F : Fiber) (fs : Fibers)
    {job : Job B P} {m : Member B P job.ρ} (unstarted : m.stage = .unstarted)
    (none : m.fork? = none) :
    m.step bodies rt F job fs =
      m.begin job (fs.isRequested F) (fs.fork F).1 (fs.fork F).2 := by
  simp only [step, unstarted, none]

/-- A turn of a run is a row of its steps. -/
theorem steps_of_turn (bodies : Bodies B P) (rt : Runtime) (bound : Nat) (F : Fiber) (job : Job B P)
    (m : Member B P job.ρ) (fs : Fibers) {s : State B P job.ρ} (going : m.stage = .going s)
    {stage : Stage B P job.ρ} {sc : Scene B} {t : Turn (Run B P job.a job.ρ) job.ρ}
    (turn : (⟨s⟩ : Run B P job.a job.ρ).turn ⟨bodies, rt, bound⟩ (m.scene fs) = (t, sc))
    (leads : t.stage? = some stage) :
    ∃ n, (m.steps bodies rt F job n fs).1.stage = stage ∧
      (m.steps bodies rt F job n fs).1.scene (m.steps bodies rt F job n fs).2 = sc := by
  induction bound generalizing m s fs with
  | zero =>
    cases turn
    cases leads
  | succ bound ih =>
    rw [Run.turn_succ] at turn
    have next := step_of_going bodies rt F fs going
    -- unless the turn goes on, this step is the whole of it
    have last (at_ : Member B P job.ρ × Fibers) (first : m.step bodies rt F job fs = at_)
        (stage_eq : at_.1.stage = stage) (scene_eq : at_.1.scene at_.2 = sc) :
        ∃ n, (m.steps bodies rt F job n fs).1.stage = stage ∧
          (m.steps bodies rt F job n fs).1.scene (m.steps bodies rt F job n fs).2 = sc := by
      refine ⟨1, ?_⟩
      rw [steps, steps, first]
      exact ⟨stage_eq, scene_eq⟩
    cases e : s.step bodies rt (m.scene fs) with
    | more s' sc' =>
      rw [e] at turn next
      obtain ⟨n, stage_eq, scene_eq⟩ :=
        ih (m.step bodies rt F job fs).1 (m.step bodies rt F job fs).2 (by rw [next]; rfl)
          (by rw [next]; exact turn)
      exact ⟨n + 1, stage_eq, scene_eq⟩
    | waiting s' sc' =>
      rw [e] at turn next
      cases turn
      exact last _ next (Option.some.inj leads) rfl
    | ended r sc' =>
      rw [e] at turn next
      cases turn
      exact last _ next (Option.some.inj leads) rfl
    | panicked panic sc' =>
      rw [e] at turn next
      cases turn
      exact last _ next (Option.some.inj leads) rfl

/-- So is the first turn of a compiled program, in which the run takes its fork. -/
theorem steps_of_kleisli (bodies : Bodies B P) (rt : Runtime) (bound : Nat) {a : Algebra} {α : Type}
    (k : Kleisli B P a α) (handle : B.Handle a) {m : Member B P α} (fs : Fibers)
    (unstarted : m.stage = .unstarted) (none : m.fork? = none) :
    ∃ (t : Turn (Run B P a α) α) (sc : Scene B),
      (Effect.kleisli k).start ⟨bodies, rt, bound⟩ handle (m.scene fs) =
        Turn.wrap EffectRun.program (t, sc) ∧
      ∀ stage, t.stage? = some stage →
        ∃ n, (m.steps bodies rt k.fiber (k.job handle) n fs).1.stage = stage ∧
          (m.steps bodies rt k.fiber (k.job handle) n fs).1.scene
            (m.steps bodies rt k.fiber (k.job handle) n fs).2 = sc := by
  refine ⟨_, _, rfl, ?_⟩
  intro stage leads
  let job : Job B P := k.job handle
  have first : m.step bodies rt k.fiber job fs = _ :=
    step_of_unstarted bodies rt k.fiber fs unstarted none
  obtain ⟨n, stage_eq, scene_eq⟩ :=
    steps_of_turn bodies rt bound k.fiber job (m.step bodies rt k.fiber job fs).1
      (m.step bodies rt k.fiber job fs).2 (by rw [first]; rfl) (by rw [first]; rfl) leads
  exact ⟨n + 1, stage_eq, scene_eq⟩

end Member

/-! ## What a run touches -/

namespace Fibers

/-- Two tables show the same of the fibers that somebody holds. -/
def SameOn (holds : Fiber → Prop) (fs fs' : Fibers) : Prop :=
  ∀ g, holds g → fs.isRequested g = fs'.isRequested g ∧ fs.mask g = fs'.mask g

/-- The mask of the fiber was there before more numbers are handed out. -/
def Knows (fs : Fibers) (g : Fiber) : Prop :=
  ∀ n, g.mask = .numbered n → n < fs.numbers

/-- From one table to the other no mask was set but that of `f`, no request was withdrawn, and of
the flags that others look at only that of the fiber `F` may have been raised. -/
structure Touched (F : Fiber) (others : Fiber → Prop) (f : Fiber) (fs fs' : Fibers) : Prop where
  mask_eq : ∀ g, f.mask ≠ g.mask → fs'.mask g = fs.mask g
  numbers_le : fs.numbers ≤ fs'.numbers
  requested : ∀ g, fs.isRequested g = true → fs'.isRequested g = true
  unrequested : ∀ g, others g → g.request ≠ F.request → fs'.isRequested g = fs.isRequested g

variable {F f g h : Fiber} {others : Fiber → Prop} {fs fs₁ fs' : Fibers}

theorem Knows.mono (known : fs.Knows g) (le : fs.numbers ≤ fs'.numbers) : fs'.Knows g :=
  fun n numbered => Nat.lt_of_lt_of_le (known n numbered) le

theorem Knows.congr (known : fs.Knows g) (same : g.mask = h.mask) : fs.Knows h :=
  fun n numbered => known n (same.trans numbered)

/-- A table does not know the next fork that is taken. -/
theorem not_knows_fork (le : fs.numbers ≤ fs'.numbers) : ¬fs.Knows (fs'.fork F).1 :=
  fun known => absurd (known fs'.numbers rfl) (Nat.not_lt_of_le le)

theorem knows_fork (fs : Fibers) (F : Fiber) : (fs.fork F).2.Knows (fs.fork F).1 := by
  rintro n ⟨⟩
  exact Nat.lt_succ_self _

theorem cancel_congr (same : g.request = h.request) (fs : Fibers) : fs.cancel g = fs.cancel h := by
  simp only [cancel, same]

/-- A flag that no fiber of a list shares is left alone when all of them are canceled. -/
theorem isRequested_cancelAll_of_ne {l : List Fiber} (apart : ∀ h ∈ l, h.request ≠ g.request) :
    (fs.cancelAll l).isRequested g = fs.isRequested g := by
  induction l generalizing fs with
  | nil => rfl
  | cons h rest ih =>
    rw [cancelAll, ih fun k member => apart k (List.mem_cons_of_mem _ member), isRequested_cancel,
      beq_eq_false_iff_ne.mpr (apart h List.mem_cons_self), Bool.false_or]

theorem numbers_cancelAll (fs : Fibers) (l : List Fiber) :
    (fs.cancelAll l).numbers = fs.numbers := by
  induction l generalizing fs with
  | nil => rfl
  | cons h rest ih => exact ih (fs.cancel h)

namespace Touched

theorem refl : fs.Touched F others f fs :=
  ⟨fun _ _ => rfl, Nat.le_refl _, fun _ => id, fun _ _ _ => rfl⟩

theorem setMask (h : fs.Touched F others f fs₁) (n : Nat) :
    fs.Touched F others f (fs₁.setMask f n) where
  mask_eq g apart := by rw [mask_setMask, if_neg apart, h.mask_eq g apart]
  numbers_le := by
    rw [numbers_setMask]
    exact h.numbers_le
  requested g was := by simpa using h.requested g was
  unrequested g seen other := by simpa using h.unrequested g seen other

theorem cancelAll (h : fs.Touched F others f fs₁) {l : List Fiber}
    (shared : ∀ k ∈ l, ∀ g, others g → k.request = g.request → g.request = F.request) :
    fs.Touched F others f (fs₁.cancelAll l) where
  mask_eq g apart := by rw [mask_cancelAll, h.mask_eq g apart]
  numbers_le := by
    rw [numbers_cancelAll]
    exact h.numbers_le
  requested g was := isRequested_cancelAll _ l (h.requested g was)
  unrequested g seen other := by
    rw [isRequested_cancelAll_of_ne fun k member same => other (shared k member g seen same)]
    exact h.unrequested g seen other

theorem cancel (h : fs.Touched F others f fs₁) (own : f.request = F.request) :
    fs.Touched F others f (fs₁.cancel f) := by
  refine h.cancelAll (l := [f]) ?_
  rintro k member g - same
  cases List.mem_singleton.mp member
  exact same.symm.trans own

end Touched

end Fibers

/-- Host code of a run whose closures hold some fibers, while those of others hold some as well: it
looks at none but its own, and requests no cancellation that others can see, unless through the
request of the fiber `F`, which all runs share. -/
def Discipline.holding (B : Backend) (F : Fiber) (holds others : Fiber → Prop) : Discipline B where
  code code :=
    (∀ fs fs' w, fs.SameOn holds fs' → code fs w = code fs' w) ∧
      ∀ fs w, ∀ h ∈ (code fs w).requests, ∀ g, others g →
        h.request = g.request → g.request = F.request
  token _ := True

/-- To a program in the fiber `f` every scene is like itself, and stays a scene in which only such a
program has touched the fibers. -/
def Likeness.touching {F f : Fiber} {holds others : Fiber → Prop} (own : f.request = F.request)
    (fs : Fibers) : Likeness (.holding B F holds others) f f where
  alike sc sc' := sc = sc' ∧ fs.Touched F others f sc.fibers
  around := Eq
  around_cons := @Likeness.cons_congr
  mask_eq alike := by rw [alike.1]
  host := by
    rintro sc _ α code obeys ⟨rfl, touched⟩
    exact ⟨rfl, rfl, touched.cancelAll (obeys.2 _ _)⟩
  emit := by
    rintro sc _ l _ h rfl ⟨rfl, touched⟩
    exact ⟨rfl, touched⟩
  setMask := by
    rintro sc _ n ⟨rfl, touched⟩
    exact ⟨rfl, touched.setMask n⟩
  cancel := by
    rintro sc _ ⟨rfl, touched⟩
    exact ⟨rfl, touched.cancel own⟩

namespace State

variable {bodies : Bodies B P} {F : Fiber} {holds others : Fiber → Prop} {s : State B P ρ}

/-- A step of a run touches the fibers as the discipline and its fork allow. -/
theorem step_touches (rt : Runtime) (own : s.fiber.request = F.request)
    (kept : (Discipline.holding B F holds others).Kept bodies)
    (obeys : s.Obeys (.holding B F holds others)) (sc : Scene B) :
    sc.fibers.Touched F others s.fiber (s.step bodies rt sc).scene.fibers := by
  have next : Next.Likened (.touching own sc.fibers) (s.step bodies rt sc) (s.step bodies rt sc) :=
    step_likened rt _ Iff.rfl rfl kept obeys.control (fun _ _ => obeys.stack.topObeys)
      ⟨rfl, .refl⟩ rfl
  exact next.alike.2

theorem abandon_touches (own : s.fiber.request = F.request) (sc : Scene B) :
    sc.fibers.Touched F others s.fiber (s.abandon sc).fibers := by
  let L : Likeness (.holding B F others others) s.fiber s.fiber := .touching own sc.fibers
  have alike : L.alike (s.abandon sc) (s.abandon sc) := L.abandon s.site s.stack ⟨rfl, .refl⟩
  exact alike.2

end State

end Cancelable
