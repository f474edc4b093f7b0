import Mathlib.Logic.Function.Basic
import Cancelable.Proofs.Member

/-!
# Companies of runs

Several runs are under way at the same time, each in a fork of one fiber.  Somebody lets one of them
take a step, drops one, or requests a cancellation, in whatever order.  A turn is a row of steps, so
to interleave turns is one way to interleave steps.

Main statements: the steps of one run in a row are a schedule like any other (`Company.acts_steps`);
whatever is done, the forks stay apart from each other and from the fiber that they were taken from
(`Company.Sound.act`), and no run changes the mask of that fiber or of another run
(`Company.Sound.mask_act`).
-/

namespace Cancelable

variable {B : Backend} {P : Procedures} {ρ ι : Type}

/-! ## Companies -/

/-- Runs that are under way at the same time, one for each job. -/
structure Company (jobs : ι → Job B P) : Type 1 where
  fibers : Fibers
  member : (i : ι) → Member B P (jobs i).ρ

/-- What may be done: a run takes a step or is dropped, or a cancellation is requested, of the fiber
itself or of the fork of a run. -/
inductive Company.Act (ι : Type) where
  | step (i : ι)
  | drop (i : ι)
  | cancel
  | cancelFork (i : ι)

/-- The run that does it. -/
def Company.Act.doer? : Company.Act ι → Option ι
  | .step i => some i
  | .drop i => some i
  | .cancel => none
  | .cancelFork _ => none

/-- Whether a run does it. -/
def Company.Act.isOf [DecidableEq ι] (i : ι) (a : Company.Act ι) : Bool :=
  a.doer? = some i

theorem Company.Act.eq_of_isOf [DecidableEq ι] {i : ι} {a : Company.Act ι}
    (own : a.isOf i = true) : a = .step i ∨ a = .drop i := by
  have doer : a.doer? = some i := of_decide_eq_true own
  cases a with
  | step j => exact .inl (congrArg Act.step (Option.some.inj doer))
  | drop j => exact .inr (congrArg Act.drop (Option.some.inj doer))
  | cancel => cases doer
  | cancelFork j => cases doer

namespace Company

variable {jobs : ι → Job B P}

/-- All runs before they begin. -/
def start (jobs : ι → Job B P) (worlds : ι → B.World) (fs : Fibers) : Company jobs where
  fibers := fs
  member i := { fork? := (jobs i).fork?, world := worlds i }

/-- A run has come to where it is now, and left the fibers as they are now. -/
def put [DecidableEq ι] (c : Company jobs) (i : ι) (now : Member B P (jobs i).ρ × Fibers) :
    Company jobs where
  fibers := now.2
  member := Function.update c.member i now.1

/-- Request a cancellation. -/
def request (c : Company jobs) (f : Fiber) : Company jobs :=
  { c with fibers := c.fibers.cancel f }

section Acts

variable [DecidableEq ι] (bodies : Bodies B P) (rt : Runtime) (F : Fiber)

def act (c : Company jobs) : Act ι → Company jobs
  | .step i => c.put i ((c.member i).step bodies rt F (jobs i) c.fibers)
  | .drop i => c.put i ((c.member i).drop F c.fibers)
  | .cancel => c.request F
  | .cancelFork i =>
    match (c.member i).fork? with
    | some f => c.request f
    | none => c

/-- Do one thing after the other. -/
def acts (c : Company jobs) : List (Act ι) → Company jobs
  | [] => c
  | a :: rest => acts (c.act bodies rt F a) rest

end Acts

section Put

variable [DecidableEq ι] {c : Company jobs} {i j : ι} {now : Member B P (jobs i).ρ × Fibers}

@[simp] theorem fibers_put : (c.put i now).fibers = now.2 := rfl

@[simp] theorem member_put_self : (c.put i now).member i = now.1 :=
  Function.update_self ..

theorem member_put_of_ne (other : j ≠ i) : (c.put i now).member j = c.member j :=
  Function.update_of_ne other ..

/-- Steps of a run that nobody interrupts, for instance those of a turn. -/
theorem acts_steps (bodies : Bodies B P) (rt : Runtime) (F : Fiber) (c : Company jobs) (n : Nat) :
    c.acts bodies rt F (List.replicate n (.step i)) =
      c.put i ((c.member i).steps bodies rt F (jobs i) n c.fibers) := by
  induction n generalizing c with
  | zero => simp [acts, Member.steps, put]
  | succ n ih =>
    rw [List.replicate_succ, acts, ih]
    simp [act, Member.steps, put]

/-- Nobody else changes a run. -/
theorem member_act_of_other (bodies : Bodies B P) (rt : Runtime) (F : Fiber) (c : Company jobs)
    {a : Act ι} (other : a.isOf i = false) :
    (c.act bodies rt F a).member i = c.member i := by
  have ne (j : ι) (doer : a.doer? = some j) : i ≠ j := by
    rintro rfl
    simp [Act.isOf, doer] at other
  cases a with
  | step j => exact member_put_of_ne (ne j rfl)
  | drop j => exact member_put_of_ne (ne j rfl)
  | cancel => rfl
  | cancelFork j =>
    simp only [act]
    cases (c.member j).fork? <;> rfl

end Put

end Company

/-! ## Apart from each other -/

/-- The fibers that the closures of other runs hold. -/
def HeldByOthers (holds : ι → Fiber → Prop) (i : ι) (g : Fiber) : Prop :=
  ∃ j, j ≠ i ∧ holds j g

/-- The discipline of one of several runs. -/
abbrev Discipline.ofRun (B : Backend) (F : Fiber) (holds : ι → Fiber → Prop) (i : ι) :
    Discipline B :=
  .holding B F (holds i) (HeldByOthers holds i)

/-- Runs that share nothing but the request of the fiber `F`.  The closures of a run hold fibers
that are in the table already, and none of them has the mask of another run.  Forks that were taken
before have fresh masks. -/
structure Apart (bodies : Bodies B P) (F : Fiber) (jobs : ι → Job B P) (holds : ι → Fiber → Prop)
    (fs : Fibers) : Prop where
  unused : ∀ g, ¬fs.Knows g → fs.mask g = 0
  knows : fs.Knows F
  knows_held : ∀ i g, holds i g → fs.Knows g
  knows_fork : ∀ i f, (jobs i).fork? = some f → fs.Knows f
  fork_request : ∀ i f, (jobs i).fork? = some f → f.request = F.request
  fork_fresh : ∀ i f, (jobs i).fork? = some f → fs.mask f = 0
  fork_ne : ∀ i f, (jobs i).fork? = some f → f.mask ≠ F.mask
  forks_ne : ∀ i j f g, i ≠ j → (jobs i).fork? = some f → (jobs j).fork? = some g →
    f.mask ≠ g.mask
  held_ne : ∀ i j f g, i ≠ j → (jobs i).fork? = some f → holds j g → f.mask ≠ g.mask
  kept : ∀ i, (Discipline.ofRun B F holds i).Kept bodies
  obeys : ∀ i, (jobs i).program.Obeys (.ofRun B F holds i)

/-! ## What one run does -/

namespace Member

/-- What a run may do, seen from outside: nothing, something in its fork, or take its fork. -/
inductive Does (F : Fiber) (others : Fiber → Prop) (m : Member B P ρ) (fs : Fibers) :
    Member B P ρ × Fibers → Prop where
  | nothing {m' : Member B P ρ} (fork_eq : m'.fork? = m.fork?) : Does F others m fs (m', fs)
  | inFork {m' : Member B P ρ} {fs' : Fibers} (f : Fiber) (fork : m.fork? = some f)
      (fork' : m'.fork? = some f) (touched : fs.Touched F others f fs') :
      Does F others m fs (m', fs')
  | forks {m' : Member B P ρ} (none : m.fork? = none) (fork' : m'.fork? = some (fs.fork F).1) :
      Does F others m fs (m', (fs.fork F).2)

/-- A run in a company, whose forks were taken from the fiber `F`, after it was begun with the
fibers `fs₀`. -/
structure Sound (F : Fiber) (fs₀ : Fibers) (D : Discipline B) (job : Job B P)
    (m : Member B P job.ρ) (fs : Fibers) : Prop where
  request_eq : ∀ f, m.fork? = some f → f.request = F.request
  mask_ne : ∀ f, m.fork? = some f → f.mask ≠ F.mask
  knows : ∀ f, m.fork? = some f → fs.Knows f
  origin : ∀ f, m.fork? = some f → job.fork? = some f ∨ job.fork? = none ∧ ¬fs₀.Knows f
  unstarted : m.stage = .unstarted → m.fork? = job.fork? ∧ m.history = []
  fresh : m.stage = .unstarted → ∀ f, m.fork? = some f → fs.mask f = 0
  going : ∀ s, m.stage = .going s → m.fork? = some s.fiber ∧ s.Obeys D

variable {F f : Fiber} {fs₀ fs : Fibers} {others : Fiber → Prop}

namespace Does

variable {m : Member B P ρ} {now : Member B P ρ × Fibers}

theorem numbers_le (does : m.Does F others fs now) : fs.numbers ≤ now.2.numbers := by
  cases does with
  | nothing fork_eq => exact Nat.le_refl _
  | inFork f fork fork' touched => exact touched.numbers_le
  | forks none fork' => exact Nat.le_succ _

/-- A run sets no mask but that of its fork. -/
theorem mask_eq {g : Fiber} (does : m.Does F others fs now)
    (apart : ∀ f, now.1.fork? = some f → f.mask ≠ g.mask) : now.2.mask g = fs.mask g := by
  cases does with
  | nothing fork_eq => rfl
  | inFork f fork fork' touched => exact touched.mask_eq g (apart f fork')
  | forks none fork' => rfl

theorem requested {g : Fiber} (does : m.Does F others fs now) (was : fs.isRequested g = true) :
    now.2.isRequested g = true := by
  cases does with
  | nothing fork_eq => exact was
  | inFork f fork fork' touched => exact touched.requested g was
  | forks none fork' => exact was

theorem unrequested {g : Fiber} (does : m.Does F others fs now) (seen : others g)
    (other : g.request ≠ F.request) : now.2.isRequested g = fs.isRequested g := by
  cases does with
  | nothing fork_eq => rfl
  | inFork f fork fork' touched => exact touched.unrequested g seen other
  | forks none fork' => rfl

/-- The fork that a run has in the end it had before, or it is new. -/
theorem fork_before (does : m.Does F others fs now) (fork : now.1.fork? = some f) :
    m.fork? = some f ∨ ¬fs.Knows f := by
  cases does with
  | nothing fork_eq => exact .inl (fork_eq.symm.trans fork)
  | inFork g before after touched => exact .inl (before.trans (after.symm.trans fork))
  | forks none fork' =>
    cases fork'.symm.trans fork
    exact .inr (Fibers.not_knows_fork (Nat.le_refl _))

end Does

/-! ## A run stays sound -/

section Sound

variable {bodies : Bodies B P} {job : Job B P} {m : Member B P job.ρ} {holds : Fiber → Prop}

/-- A run that comes to a stage in its fork. -/
theorem Sound.reach {D : Discipline B} (h : m.Sound F fs₀ D job fs) (fork : m.fork? = some f)
    (requested : Bool) (executed : List (Executed B P)) {stage : Stage B P job.ρ} {sc : Scene B}
    (touched : fs.Touched F others f sc.fibers) (begun : stage ≠ .unstarted)
    (going : ∀ s, stage = .going s → s.fiber = f ∧ s.Obeys D) :
    m.Does F others fs (m.reach f requested executed stage sc) ∧
      (m.reach f requested executed stage sc).1.Sound F fs₀ D job sc.fibers := by
  refine ⟨.inFork f fork rfl touched, ?_⟩
  constructor
  · rintro g ⟨⟩
    exact h.request_eq f fork
  · rintro g ⟨⟩
    exact h.mask_ne f fork
  · rintro g ⟨⟩
    exact (h.knows f fork).mono touched.numbers_le
  · rintro g ⟨⟩
    exact h.origin f fork
  · exact fun unstarted => absurd unstarted begun
  · exact fun unstarted => absurd unstarted begun
  · rintro s goes
    obtain ⟨rfl, obeys⟩ := going s goes
    exact ⟨rfl, obeys⟩

/-- A run that takes its fork to begin. -/
theorem Sound.reach_fork {D : Discipline B} (h : m.Sound F fs₀ D job fs) (none : m.fork? = none)
    (unstarted : m.stage = .unstarted) (obeys : job.program.Obeys D)
    (numbers_le : fs₀.numbers ≤ fs.numbers) (knows : fs₀.Knows F) (requested : Bool) :
    m.Does F others fs (m.begin job requested (fs.fork F).1 (fs.fork F).2) ∧
      (m.begin job requested (fs.fork F).1 (fs.fork F).2).1.Sound F fs₀ D job (fs.fork F).2 := by
  have new : ¬fs₀.Knows (fs.fork F).1 := Fibers.not_knows_fork numbers_le
  refine ⟨.forks none rfl, ?_⟩
  constructor
  · rintro g ⟨⟩
    rfl
  · rintro g ⟨⟩ same
    exact new (knows.congr same.symm)
  · rintro g ⟨⟩
    exact Fibers.knows_fork fs F
  · rintro g ⟨⟩
    exact .inr ⟨(h.unstarted unstarted).1.symm.trans none, new⟩
  · nofun
  · nofun
  · rintro s ⟨⟩
    exact ⟨rfl, obeys, trivial⟩

/-- A step of a run, also its first one. -/
theorem Sound.step (rt : Runtime) (h : m.Sound F fs₀ (.holding B F holds others) job fs)
    (kept : (Discipline.holding B F holds others).Kept bodies)
    (obeys : job.program.Obeys (.holding B F holds others))
    (numbers_le : fs₀.numbers ≤ fs.numbers) (knows : fs₀.Knows F) :
    m.Does F others fs (m.step bodies rt F job fs) ∧
      (m.step bodies rt F job fs).1.Sound F fs₀ (.holding B F holds others) job
        (m.step bodies rt F job fs).2 := by
  cases stage : m.stage with
  | unstarted =>
    simp only [Member.step, stage]
    cases fork : m.fork? with
    | some f =>
      refine h.reach fork _ _ .refl (by simp) ?_
      rintro s ⟨⟩
      exact ⟨rfl, obeys, trivial⟩
    | none => exact h.reach_fork fork stage obeys numbers_le knows _
  | going s =>
    obtain ⟨fork, s_obeys⟩ := h.going s stage
    have touched : fs.Touched F others s.fiber (s.step bodies rt (m.scene fs)).scene.fibers :=
      State.step_touches rt (h.request_eq _ fork) kept s_obeys (m.scene fs)
    rw [← Next.fibers_reported job.a] at touched
    rw [step_of_going bodies rt F fs stage]
    refine h.reach fork _ _ touched (Next.stage_ne_unstarted _) ?_
    intro t goes
    have goes := Next.goesTo_of_stage goes
    exact ⟨State.fiber_of_moves (State.moves_of_goesTo goes),
      s_obeys.goesTo kept (fun _ => trivial) goes⟩
  | ended ending =>
    simp only [Member.step, stage]
    exact ⟨.nothing rfl, h⟩
  | dropped =>
    simp only [Member.step, stage]
    exact ⟨.nothing rfl, h⟩

theorem Sound.drop {D : Discipline B} (h : m.Sound F fs₀ D job fs) :
    m.Does F others fs (m.drop F fs) ∧
      (m.drop F fs).1.Sound F fs₀ D job (m.drop F fs).2 := by
  cases stage : m.stage with
  | unstarted =>
    simp only [Member.drop, stage]
    refine ⟨.nothing rfl, h.request_eq, h.mask_ne, h.knows, h.origin, nofun, nofun, ?_⟩
    exact fun _ goes => by cases goes
  | going s =>
    obtain ⟨fork, -⟩ := h.going s stage
    have touched : fs.Touched F others s.fiber (s.abandon (m.scene fs)).fibers :=
      State.abandon_touches (h.request_eq _ fork) (m.scene fs)
    simp only [Member.drop, stage]
    exact h.reach fork _ _ touched (by simp) fun _ goes => by cases goes
  | ended ending =>
    simp only [Member.drop, stage]
    exact ⟨.nothing rfl, h⟩
  | dropped =>
    simp only [Member.drop, stage]
    exact ⟨.nothing rfl, h⟩

/-- What others do that leaves the masks of all forks alone. -/
theorem Sound.spared {D : Discipline B} {fs' : Fibers} (h : m.Sound F fs₀ D job fs)
    (numbers_le : fs.numbers ≤ fs'.numbers)
    (mask_eq : ∀ f, m.fork? = some f → fs'.mask f = fs.mask f) : m.Sound F fs₀ D job fs' where
  request_eq := h.request_eq
  mask_ne := h.mask_ne
  knows f fork := (h.knows f fork).mono numbers_le
  origin := h.origin
  unstarted := h.unstarted
  fresh stage f fork := (mask_eq f fork).trans (h.fresh stage f fork)
  going := h.going

end Sound

end Member

/-! ## Companies stay sound -/

namespace Company

variable {jobs : ι → Job B P} {bodies : Bodies B P} {F : Fiber} {holds : ι → Fiber → Prop}
  {fs₀ : Fibers} {c : Company jobs}

/-- A company that was begun with the fibers `fs₀`: the forks are apart from each other, and the
masks of fibers that do not exist yet are fresh. -/
structure Sound (F : Fiber) (holds : ι → Fiber → Prop) (fs₀ : Fibers) (c : Company jobs) :
    Prop where
  numbers_le : fs₀.numbers ≤ c.fibers.numbers
  unused : ∀ g, ¬c.fibers.Knows g → c.fibers.mask g = 0
  member : ∀ i, (c.member i).Sound F fs₀ (.ofRun B F holds i) (jobs i) c.fibers
  forks_ne : ∀ i j f g, i ≠ j → (c.member i).fork? = some f → (c.member j).fork? = some g →
    f.mask ≠ g.mask

theorem Sound.start (apart : Apart bodies F jobs holds fs₀) (worlds : ι → B.World) :
    (Company.start jobs worlds fs₀).Sound F holds fs₀ where
  numbers_le := Nat.le_refl _
  unused := apart.unused
  member i :=
    { request_eq := apart.fork_request i
      mask_ne := apart.fork_ne i
      knows := apart.knows_fork i
      origin := fun _ fork => .inl fork
      unstarted := fun _ => ⟨rfl, rfl⟩
      fresh := fun _ => apart.fork_fresh i
      going := fun _ goes => by cases goes }
  forks_ne := apart.forks_ne

/-- A fork that is taken now has a fresh mask. -/
theorem Sound.unused_fork (h : c.Sound F holds fs₀) : c.fibers.mask (c.fibers.fork F).1 = 0 :=
  h.unused _ (Fibers.not_knows_fork (Nat.le_refl _))

/-- The mask of a fork is that of no fiber that another run holds. -/
theorem Sound.held_ne (h : c.Sound F holds fs₀) (apart : Apart bodies F jobs holds fs₀) {i j : ι}
    {f g : Fiber} (other : i ≠ j) (fork : (c.member i).fork? = some f) (held : holds j g) :
    f.mask ≠ g.mask := by
  rcases (h.member i).origin f fork with taken | ⟨-, new⟩
  · exact apart.held_ne i j f g other taken held
  · intro same
    exact new ((apart.knows_held j g held).congr same.symm)

section Acts

variable {i : ι} {now : Member B P (jobs i).ρ × Fibers}

/-- Where a run has done something, its fork is still apart from those of the others. -/
theorem Sound.fork_ne (h : c.Sound F holds fs₀)
    (does : (c.member i).Does F (HeldByOthers holds i) c.fibers now) {j : ι} {f g : Fiber}
    (other : i ≠ j) (fork : now.1.fork? = some f) (fork' : (c.member j).fork? = some g) :
    f.mask ≠ g.mask := by
  rcases does.fork_before fork with before | new
  · exact h.forks_ne i j f g other before fork'
  · intro same
    exact new (((h.member j).knows g fork').congr same.symm)

theorem Sound.request (h : c.Sound F holds fs₀) (f : Fiber) :
    (c.request f).Sound F holds fs₀ where
  numbers_le := h.numbers_le
  unused := h.unused
  member i := (h.member i).spared (Nat.le_refl _) fun _ _ => rfl
  forks_ne := h.forks_ne

variable [DecidableEq ι]

theorem Sound.put (h : c.Sound F holds fs₀)
    (does : (c.member i).Does F (HeldByOthers holds i) c.fibers now)
    (sound : now.1.Sound F fs₀ (.ofRun B F holds i) (jobs i) now.2) :
    (c.put i now).Sound F holds fs₀ where
  numbers_le := Nat.le_trans h.numbers_le does.numbers_le
  unused g unknown := by
    have apart (f : Fiber) (fork : now.1.fork? = some f) : f.mask ≠ g.mask :=
      fun same => unknown ((sound.knows f fork).congr same)
    have before : ¬c.fibers.Knows g := fun known => unknown (known.mono does.numbers_le)
    exact (does.mask_eq apart).trans (h.unused g before)
  member j := by
    by_cases own : j = i
    · subst own
      rw [member_put_self]
      exact sound
    · rw [member_put_of_ne own]
      refine (h.member j).spared does.numbers_le fun g fork => ?_
      exact does.mask_eq fun f fork' => h.fork_ne does (Ne.symm own) fork' fork
  forks_ne := by
    intro j k f g other fork fork'
    by_cases first : j = i
    · subst first
      rw [member_put_self] at fork
      rw [member_put_of_ne other.symm] at fork'
      exact h.fork_ne does other fork fork'
    · rw [member_put_of_ne first] at fork
      by_cases second : k = i
      · subst second
        rw [member_put_self] at fork'
        exact (h.fork_ne does (Ne.symm first) fork' fork).symm
      · rw [member_put_of_ne second] at fork'
        exact h.forks_ne j k f g other fork fork'

/-- What an act is: a run does something, the cancellation is requested, or there is no fork to
cancel. -/
theorem Sound.act_cases (rt : Runtime) (h : c.Sound F holds fs₀)
    (apart : Apart bodies F jobs holds fs₀) (a : Act ι) :
    (∃ i now, a.doer? = some i ∧ c.act bodies rt F a = c.put i now ∧
      (c.member i).Does F (HeldByOthers holds i) c.fibers now ∧
        now.1.Sound F fs₀ (.ofRun B F holds i) (jobs i) now.2) ∨
    a.doer? = none ∧ (c.act bodies rt F a = c.request F ∨ c.act bodies rt F a = c) := by
  cases a with
  | step i =>
    obtain ⟨does, sound⟩ :=
      (h.member i).step rt (apart.kept i) (apart.obeys i) h.numbers_le apart.knows
    exact .inl ⟨i, _, rfl, rfl, does, sound⟩
  | drop i =>
    obtain ⟨does, sound⟩ := (h.member i).drop
    exact .inl ⟨i, _, rfl, rfl, does, sound⟩
  | cancel => exact .inr ⟨rfl, .inl rfl⟩
  | cancelFork i =>
    refine .inr ⟨rfl, ?_⟩
    simp only [act]
    cases fork : (c.member i).fork? with
    | some f =>
      have same : f.request = F.request := (h.member i).request_eq f fork
      left
      simp only [Company.request, Fibers.cancel_congr same]
    | none => exact .inr rfl

theorem Sound.act (rt : Runtime) (h : c.Sound F holds fs₀) (apart : Apart bodies F jobs holds fs₀)
    (a : Act ι) : (c.act bodies rt F a).Sound F holds fs₀ := by
  rcases h.act_cases rt apart a with ⟨i, now, -, same, does, sound⟩ | ⟨-, same | same⟩
  · rw [same]
    exact h.put does sound
  · rw [same]
    exact h.request F
  · rw [same]
    exact h

theorem Sound.acts (rt : Runtime) (h : c.Sound F holds fs₀) (apart : Apart bodies F jobs holds fs₀)
    (l : List (Act ι)) : (c.acts bodies rt F l).Sound F holds fs₀ := by
  induction l generalizing c with
  | nil => exact h
  | cons a rest ih => exact ih (h.act rt apart a)

/-- Nothing that is done changes the mask of the fiber that the forks were taken from, or of a run
that does not do it itself. -/
theorem Sound.mask_act (rt : Runtime) (h : c.Sound F holds fs₀)
    (apart : Apart bodies F jobs holds fs₀) (a : Act ι) :
    (c.act bodies rt F a).fibers.mask F = c.fibers.mask F ∧
      ∀ j, a.isOf j = false → ∀ g, (c.member j).fork? = some g →
        (c.act bodies rt F a).fibers.mask g = c.fibers.mask g := by
  rcases h.act_cases rt apart a with ⟨i, now, doer, same, does, sound⟩ | ⟨-, same | same⟩
  · rw [same]
    refine ⟨does.mask_eq sound.mask_ne, ?_⟩
    intro j other g fork
    have other : i ≠ j := by
      rintro rfl
      simp [Act.isOf, doer] at other
    exact does.mask_eq fun f fork' => h.fork_ne does other fork' fork
  · rw [same]
    exact ⟨rfl, fun _ _ _ _ => rfl⟩
  · rw [same]
    exact ⟨rfl, fun _ _ _ _ => rfl⟩

end Acts
end Company
end Cancelable
