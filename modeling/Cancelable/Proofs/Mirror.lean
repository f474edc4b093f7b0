import Cancelable.Proofs.Company

/-!
# The same run alone

Follow one run of a company, and beside it the same run alone: in a company in which nobody but this
run does anything, and in which the cancellation is requested when some other run, or somebody else,
requests it in the first company.  The run comes to the same stages in both, since the others leave
its mask and what its closures look at alone.

A run that takes its fork itself may take different ones in the two companies, as more forks may
have been taken before in the first one.  So the two runs are compared in two fibers.

Main statement: whatever is done in a company, a run does the same alone (`Company.exists_alone`).
-/

namespace Cancelable

variable {B : Backend} {P : Procedures} {ρ ι : Type}

/-! ## Tables that show the same -/

namespace Fibers

variable {F f f' g h : Fiber} {holds : Fiber → Prop} {fs fs' : Fibers}

theorem isRequested_congr (same : g.request = h.request) (fs : Fibers) :
    fs.isRequested g = fs.isRequested h := by
  simp only [isRequested, same]

namespace SameOn

theorem cancel (same : fs.SameOn holds fs') (h : Fiber) :
    (fs.cancel h).SameOn holds (fs'.cancel h) := by
  intro g held
  obtain ⟨requested, depth⟩ := same g held
  refine ⟨?_, depth⟩
  rw [isRequested_cancel, isRequested_cancel, requested]

theorem cancelAll (same : fs.SameOn holds fs') (l : List Fiber) :
    (fs.cancelAll l).SameOn holds (fs'.cancelAll l) := by
  induction l generalizing fs fs' with
  | nil => exact same
  | cons h rest ih => exact ih (same.cancel h)

/-- The masks of fibers that are not held may be set to the same depth. -/
theorem setMask (same : fs.SameOn holds fs')
    (apart : ∀ g, holds g → (f.mask = g.mask ↔ f'.mask = g.mask)) (n : Nat) :
    (fs.setMask f n).SameOn holds (fs'.setMask f' n) := by
  intro g held
  obtain ⟨requested, depth⟩ := same g held
  refine ⟨by simpa using requested, ?_⟩
  simp only [mask_setMask, apart g held, depth]

end SameOn

/-- What a run looks at, if its closures hold some fibers: these, and the request of the fiber that
its fork was taken from. -/
def Seen (F : Fiber) (holds : Fiber → Prop) (g : Fiber) : Prop :=
  g = F ∨ holds g

end Fibers

open Fibers (Seen)

/-! ## One step in two companies -/

/-- Two scenes show the same to a run, which is in the fork `f` in one of them and in the fork `f'`
in the other one. -/
structure Scene.Mirrors (F : Fiber) (holds : Fiber → Prop) (f f' : Fiber) (sc sc' : Scene B) :
    Prop where
  world_eq : sc.world = sc'.world
  events_eq : sc.events = sc'.events
  depth : sc.fibers.mask f = sc'.fibers.mask f'
  same : sc.fibers.SameOn (Seen F holds) sc'.fibers

/-- Scenes that show the same to a run are alike to it. -/
def Likeness.mirrored {F f f' : Fiber} {holds others : Fiber → Prop} (own : f.request = F.request)
    (own' : f'.request = F.request)
    (apart : ∀ g, Seen F holds g → (f.mask = g.mask ↔ f'.mask = g.mask)) :
    Likeness (.holding B F holds others) f f' where
  alike := Scene.Mirrors F holds f f'
  around := Eq
  around_cons := @Likeness.cons_congr
  mask_eq alike := alike.depth
  host {sc sc' α code} obeys alike := by
    have held : sc.fibers.SameOn holds sc'.fibers := fun g held => alike.same g (.inr held)
    have result : code sc.fibers sc.world = code sc'.fibers sc'.world := by
      rw [obeys.1 _ _ _ held, alike.world_eq]
    unfold Scene.host
    rw [result]
    refine ⟨rfl, rfl, alike.events_eq, ?_, alike.same.cancelAll _⟩
    simpa using alike.depth
  emit {sc sc' l l'} h around alike := by
    obtain rfl : l = l' := around
    exact ⟨alike.world_eq, congrArg (_ :: ·) alike.events_eq, alike.depth, alike.same⟩
  setMask n alike :=
    ⟨alike.world_eq, alike.events_eq, by simp, alike.same.setMask apart n⟩
  cancel {sc sc'} alike := by
    have same : (sc.fibers.cancel f).SameOn (Seen F holds) (sc'.fibers.cancel f') := by
      rw [Fibers.cancel_congr (own.trans own'.symm)]
      exact alike.same.cancel f'
    exact ⟨alike.world_eq, alike.events_eq, alike.depth, same⟩

/-- The same stage in two companies, in forks of the same mask depth. -/
inductive Stage.Mirrors (fs fs' : Fibers) : Stage B P ρ → Stage B P ρ → Prop where
  | unstarted : Mirrors fs fs' .unstarted .unstarted
  | going (s : State B P ρ) (f' : Fiber) (depth : fs.mask s.fiber = fs'.mask f') :
      Mirrors fs fs' (.going s) (.going (s.into f'))
  | ended (ending : Ending ρ) : Mirrors fs fs' (.ended ending) (.ended ending)
  | dropped : Mirrors fs fs' .dropped .dropped

/-- What leaves the depths of both forks alone. -/
theorem Stage.Mirrors.spared {fs fs' fs₁ fs₁' : Fibers} {stage stage' : Stage B P ρ}
    (h : Mirrors fs fs' stage stage')
    (mask_eq : ∀ s, stage = .going s → fs₁.mask s.fiber = fs.mask s.fiber)
    (mask_eq' : ∀ g, fs₁'.mask g = fs'.mask g) : Mirrors fs₁ fs₁' stage stage' := by
  cases h with
  | unstarted => exact .unstarted
  | going s f' depth =>
    refine .going s f' ?_
    rw [mask_eq s rfl, mask_eq', depth]
  | ended ending => exact .ended ending
  | dropped => exact .dropped

theorem Next.Likened.mirrors {F f f' : Fiber} {holds others : Fiber → Prop}
    {own : f.request = F.request} {own' : f'.request = F.request}
    {apart : ∀ g, Seen F holds g → (f.mask = g.mask ↔ f'.mask = g.mask)} {n n' : Next B P ρ}
    (next : Likened (.mirrored own own' apart : Likeness (.holding B F holds others) f f') n n')
    (a : Algebra) :
    (n.reported a).Mirrors F holds f f' (n'.reported a) ∧
      Stage.Mirrors (n.reported a).fibers (n'.reported a).fibers n.stage n'.stage := by
  cases next with
  | more s own alike =>
    subst own
    exact ⟨alike, .going s f' alike.depth⟩
  | waiting s own alike =>
    subst own
    exact ⟨alike, .going s f' alike.depth⟩
  | ended r alike =>
    let L : Likeness (.holding B F holds others) f f' := .mirrored own own' apart
    exact ⟨L.emit _ rfl alike, .ended _⟩
  | panicked panic alike => exact ⟨alike, .ended _⟩

namespace Member

/-- The same run in two companies. -/
structure Mirrors (F : Fiber) (holds : Fiber → Prop) (m m' : Member B P ρ) (fs fs' : Fibers) :
    Prop where
  world_eq : m.world = m'.world
  events_eq : m.events = m'.events
  history_eq : m.history = m'.history
  same : fs.SameOn (Seen F holds) fs'
  stage : Stage.Mirrors fs fs' m.stage m'.stage

variable {F f f' : Fiber} {fs₀ fs fs' : Fibers} {holds others : Fiber → Prop} {D : Discipline B}
  {job : Job B P} {m m' : Member B P job.ρ} {bodies : Bodies B P}

theorem Mirrors.requested_eq (h : m.Mirrors F holds m' fs fs') :
    fs.isRequested F = fs'.isRequested F :=
  (h.same F (.inl rfl)).1

/-- Forks of one job have the same masks in common with the fibers that are held. -/
theorem Sound.mask_iff (h : m.Sound F fs₀ D job fs) (h' : m'.Sound F fs₀ D job fs')
    (fork : m.fork? = some f) (fork' : m'.fork? = some f') {g : Fiber} (known : fs₀.Knows g) :
    f.mask = g.mask ↔ f'.mask = g.mask := by
  have new {f : Fiber} (unknown : ¬fs₀.Knows f) : f.mask ≠ g.mask :=
    fun same => unknown (known.congr same.symm)
  rcases h.origin f fork with taken | ⟨none, unknown⟩
  · rcases h'.origin f' fork' with taken' | ⟨none', -⟩
    · cases taken.symm.trans taken'
      exact Iff.rfl
    · cases taken.symm.trans none'
  · rcases h'.origin f' fork' with taken' | ⟨-, unknown'⟩
    · cases none.symm.trans taken'
    · exact iff_of_false (new unknown) (new unknown')

theorem Mirrors.reach (h : m.Mirrors F holds m' fs fs') {requested requested' : Bool}
    (same : requested = requested') {executed executed' : List (Executed B P)}
    (carried : executed = executed') {stage stage' : Stage B P job.ρ} {sc sc' : Scene B}
    (scenes : sc.Mirrors F holds f f' sc')
    (stages : Stage.Mirrors sc.fibers sc'.fibers stage stage') :
    (m.reach f requested executed stage sc).1.Mirrors F holds
      (m'.reach f' requested' executed' stage' sc').1 sc.fibers sc'.fibers := by
  subst same carried
  refine ⟨scenes.world_eq, scenes.events_eq, ?_, scenes.same, stages⟩
  simp only [Member.reach, h.history_eq, scenes.depth]

/-- A step of the same run, in both companies. -/
theorem Mirrors.step (rt : Runtime) (h : m.Mirrors F holds m' fs fs')
    (kept : (Discipline.holding B F holds others).Kept bodies)
    (sound : m.Sound F fs₀ (.holding B F holds others) job fs)
    (sound' : m'.Sound F fs₀ (.holding B F holds others) job fs')
    (known : ∀ g, Seen F holds g → fs₀.Knows g)
    (unused : fs.mask (fs.fork F).1 = 0) (unused' : fs'.mask (fs'.fork F).1 = 0) :
    (m.step bodies rt F job fs).1.Mirrors F holds (m'.step bodies rt F job fs').1
      (m.step bodies rt F job fs).2 (m'.step bodies rt F job fs').2 := by
  have scenes {f f' : Fiber} {fs fs' : Fibers} (depth : fs.mask f = fs'.mask f')
      (same : fs.SameOn (Seen F holds) fs') :
      (m.scene fs).Mirrors F holds f f' (m'.scene fs') :=
    ⟨h.world_eq, h.events_eq, depth, same⟩
  -- in both companies the run begins at the same depth
  have begins {f f' : Fiber} {fs₁ fs₁' : Fibers} (depth : fs₁.mask f = fs₁'.mask f')
      (same : fs₁.SameOn (Seen F holds) fs₁') :
      (m.begin job (fs.isRequested F) f fs₁).1.Mirrors F holds
        (m'.begin job (fs'.isRequested F) f' fs₁').1 fs₁ fs₁' := by
    refine h.reach h.requested_eq rfl (scenes depth same) ?_
    have start : State.start f' job.handle job.program fs₁' =
        (State.start f job.handle job.program fs₁).into f' := by
      simp only [State.start, State.into, depth]
    rw [start]
    exact .going _ f' depth
  have stages := h.stage
  generalize stage : m.stage = t at stages
  generalize stage' : m'.stage = t' at stages
  cases stages with
  | unstarted =>
    have fork' : m'.fork? = m.fork? :=
      (sound'.unstarted stage').1.trans (sound.unstarted stage).1.symm
    simp only [Member.step, stage, stage', fork']
    cases fork : m.fork? with
    | some f =>
      have depth : fs.mask f = fs'.mask f := by
        rw [sound.fresh stage f fork, sound'.fresh stage' f (fork'.trans fork)]
      exact begins depth h.same
    | none => exact begins (unused.trans unused'.symm) h.same
  | going s f' depth =>
    obtain ⟨fork, obeys⟩ := sound.going s stage
    obtain ⟨fork', -⟩ := sound'.going _ stage'
    have apart (g : Fiber) (seen : Seen F holds g) : s.fiber.mask = g.mask ↔ f'.mask = g.mask :=
      sound.mask_iff sound' fork fork' (known g seen)
    have own : s.fiber.request = F.request := sound.request_eq _ fork
    have own' : f'.request = F.request := sound'.request_eq _ fork'
    have requested : fs.isRequested s.fiber = fs'.isRequested f' := by
      rw [Fibers.isRequested_congr own, Fibers.isRequested_congr own', h.requested_eq]
    have looks : s.looks (m.scene fs) = (s.into f').looks (m'.scene fs') :=
      State.looks_into rfl requested depth
    have next : Next.Likened (.mirrored own own' apart) (s.step bodies rt (m.scene fs))
        ((s.into f').step bodies rt (m'.scene fs')) :=
      State.step_likened rt _ Iff.rfl rfl kept obeys.control (fun _ _ => obeys.stack.topObeys)
        (scenes depth h.same) looks
    obtain ⟨reported, stages⟩ := next.mirrors job.a
    rw [step_of_going bodies rt F fs stage, step_of_going bodies rt F fs' stage',
      State.executes_into looks]
    exact h.reach h.requested_eq rfl reported stages
  | ended ending =>
    simp only [Member.step, stage, stage']
    exact h
  | dropped =>
    simp only [Member.step, stage, stage']
    exact h

/-- The same run is dropped, in both companies. -/
theorem Mirrors.drop (h : m.Mirrors F holds m' fs fs') (sound : m.Sound F fs₀ D job fs)
    (sound' : m'.Sound F fs₀ D job fs') (known : ∀ g, Seen F holds g → fs₀.Knows g) :
    (m.drop F fs).1.Mirrors F holds (m'.drop F fs').1 (m.drop F fs).2 (m'.drop F fs').2 := by
  have stages := h.stage
  generalize stage : m.stage = t at stages
  generalize stage' : m'.stage = t' at stages
  cases stages with
  | unstarted =>
    simp only [Member.drop, stage, stage']
    exact ⟨h.world_eq, h.events_eq, h.history_eq, h.same, .dropped⟩
  | going s f' depth =>
    obtain ⟨fork, -⟩ := sound.going s stage
    obtain ⟨fork', -⟩ := sound'.going _ stage'
    let L : Likeness (.holding B F holds holds) s.fiber f' :=
      .mirrored (sound.request_eq _ fork) (sound'.request_eq _ fork') fun g seen =>
        sound.mask_iff sound' fork fork' (known g seen)
    have alike : L.alike (s.abandon (m.scene fs)) ((s.into f').abandon (m'.scene fs')) :=
      L.abandon s.site s.stack ⟨h.world_eq, h.events_eq, depth, h.same⟩
    simp only [Member.drop, stage, stage']
    exact h.reach h.requested_eq rfl alike .dropped
  | ended ending =>
    simp only [Member.drop, stage, stage']
    exact h
  | dropped =>
    simp only [Member.drop, stage, stage']
    exact h

/-- What others do can be made up for by a request, or need not be made up for. -/
theorem Mirrors.spared {fs₁ : Fibers} (h : m.Mirrors F holds m' fs fs')
    (sound : m.Sound F fs₀ D job fs)
    (mask_eq : ∀ g, Seen F holds g ∨ m.fork? = some g → fs₁.mask g = fs.mask g)
    (requested : fs.isRequested F = true → fs₁.isRequested F = true)
    (unrequested : ∀ g, Seen F holds g → g.request ≠ F.request →
      fs₁.isRequested g = fs.isRequested g) :
    m.Mirrors F holds m' fs₁ fs' ∨ m.Mirrors F holds m' fs₁ (fs'.cancel F) := by
  have stage {fs₂ : Fibers} (depth : ∀ g, fs₂.mask g = fs'.mask g) :
      Stage.Mirrors fs₁ fs₂ m.stage m'.stage :=
    h.stage.spared (fun s going => mask_eq _ (.inr (sound.going s going).1)) depth
  by_cases raised : fs₁.isRequested F = fs.isRequested F
  · refine .inl ⟨h.world_eq, h.events_eq, h.history_eq, ?_, stage fun _ => rfl⟩
    intro g seen
    obtain ⟨request, depth⟩ := h.same g seen
    refine ⟨?_, (mask_eq g (.inl seen)).trans depth⟩
    by_cases shared : g.request = F.request
    · rw [← request, Fibers.isRequested_congr shared, Fibers.isRequested_congr shared, raised]
    · rw [← request, unrequested g seen shared]
  · -- the cancellation was not requested before
    have now : fs₁.isRequested F = true := by
      cases was : fs.isRequested F with
      | true => exact requested was
      | false => simpa [was] using raised
    refine .inr ⟨h.world_eq, h.events_eq, h.history_eq, ?_, stage fun _ => rfl⟩
    intro g seen
    obtain ⟨request, depth⟩ := h.same g seen
    refine ⟨?_, (mask_eq g (.inl seen)).trans depth⟩
    rw [Fibers.isRequested_cancel]
    by_cases shared : g.request = F.request
    · rw [Fibers.isRequested_congr shared, now, shared, beq_self_eq_true, Bool.true_or]
    · rw [unrequested g seen shared, request, beq_eq_false_iff_ne.mpr (Ne.symm shared),
        Bool.false_or]

end Member

/-! ## The same run alone -/

namespace Company

variable [DecidableEq ι] {jobs : ι → Job B P} {bodies : Bodies B P} {F : Fiber}
  {holds : ι → Fiber → Prop} {fs₀ : Fibers} {c d : Company jobs} {i : ι}

/-- Among all that is done, what a run does itself, and some requests. -/
structure Alone (i : ι) (l alone : List (Act ι)) : Prop where
  only : ∀ a ∈ alone, a.isOf i = true ∨ a = .cancel
  own : alone.filter (Act.isOf i) = l.filter (Act.isOf i)

/-- What the run does itself it does in both companies. -/
theorem mirrors_own (rt : Runtime) (apart : Apart bodies F jobs holds fs₀)
    (h : c.Sound F holds fs₀) (h' : d.Sound F holds fs₀)
    (mirrors : (c.member i).Mirrors F (holds i) (d.member i) c.fibers d.fibers) {a : Act ι}
    (own : a.isOf i = true) :
    ((c.act bodies rt F a).member i).Mirrors F (holds i) ((d.act bodies rt F a).member i)
      (c.act bodies rt F a).fibers (d.act bodies rt F a).fibers := by
  have known (g : Fiber) (seen : Seen F (holds i) g) : fs₀.Knows g := by
    rcases seen with rfl | held
    · exact apart.knows
    · exact apart.knows_held i g held
  rcases Act.eq_of_isOf own with rfl | rfl
  · simp only [act, member_put_self, fibers_put]
    exact mirrors.step rt (apart.kept i) (h.member i) (h'.member i) known h.unused_fork
      h'.unused_fork
  · simp only [act, member_put_self, fibers_put]
    exact mirrors.drop (h.member i) (h'.member i) known

/-- What is done besides is nothing to the run, or it is a request. -/
theorem mirrors_others (rt : Runtime) (apart : Apart bodies F jobs holds fs₀)
    (h : c.Sound F holds fs₀)
    (mirrors : (c.member i).Mirrors F (holds i) (d.member i) c.fibers d.fibers) {a : Act ι}
    (other : a.isOf i = false) :
    ∃ d', (d' = d ∨ d' = d.act bodies rt F .cancel) ∧
      ((c.act bodies rt F a).member i).Mirrors F (holds i) (d'.member i)
        (c.act bodies rt F a).fibers d'.fibers := by
  rcases h.act_cases rt apart a with ⟨j, now, doer, same, does, sound⟩ | ⟨-, same | same⟩
  · rw [same]
    have other : j ≠ i := by
      rintro rfl
      simp [Act.isOf, doer] at other
    have mask_eq (g : Fiber) (seen : Seen F (holds i) g ∨ (c.member i).fork? = some g) :
        now.2.mask g = c.fibers.mask g := by
      refine does.mask_eq fun f fork => ?_
      rcases seen with (rfl | held) | fork'
      · exact sound.mask_ne f fork
      · exact (h.put does sound).held_ne apart other (by rwa [member_put_self]) held
      · exact h.fork_ne does other fork fork'
    have unrequested (g : Fiber) (seen : Seen F (holds i) g) (shared : g.request ≠ F.request) :
        now.2.isRequested g = c.fibers.isRequested g := by
      rcases seen with rfl | held
      · exact absurd rfl shared
      · exact does.unrequested ⟨i, other.symm, held⟩ shared
    have stays : (c.put j now).member i = c.member i := member_put_of_ne other.symm
    rw [stays, fibers_put]
    rcases mirrors.spared (h.member i) mask_eq does.requested unrequested with same | same
    · exact ⟨d, .inl rfl, same⟩
    · exact ⟨d.request F, .inr rfl, same⟩
  · rw [same]
    have stages : Stage.Mirrors (c.fibers.cancel F) (d.fibers.cancel F) (c.member i).stage
        (d.member i).stage := mirrors.stage.spared (fun _ _ => rfl) fun _ => rfl
    exact ⟨d.request F, .inr rfl, mirrors.world_eq, mirrors.events_eq, mirrors.history_eq,
      mirrors.same.cancel F, stages⟩
  · rw [same]
    exact ⟨d, .inl rfl, mirrors⟩

/-- Whatever is done in a company, a run can do the same alone. -/
theorem exists_alone (rt : Runtime) (apart : Apart bodies F jobs holds fs₀)
    (h : c.Sound F holds fs₀) (h' : d.Sound F holds fs₀)
    (mirrors : (c.member i).Mirrors F (holds i) (d.member i) c.fibers d.fibers)
    (l : List (Act ι)) :
    ∃ alone, Alone i l alone ∧
      ((c.acts bodies rt F l).member i).Mirrors F (holds i)
        ((d.acts bodies rt F alone).member i) (c.acts bodies rt F l).fibers
        (d.acts bodies rt F alone).fibers := by
  induction l generalizing c d with
  | nil => exact ⟨[], ⟨nofun, rfl⟩, mirrors⟩
  | cons a rest ih =>
    have next : (c.act bodies rt F a).Sound F holds fs₀ := h.act rt apart a
    cases own : a.isOf i with
    | true =>
      obtain ⟨alone, ⟨only, same⟩, last⟩ :=
        ih next (h'.act rt apart a) (mirrors_own rt apart h h' mirrors own)
      refine ⟨a :: alone, ⟨?_, ?_⟩, last⟩
      · exact List.forall_mem_cons.mpr ⟨.inl own, only⟩
      · rw [List.filter_cons_of_pos own, List.filter_cons_of_pos own, same]
    | false =>
      have skips : (a :: rest).filter (Act.isOf i) = rest.filter (Act.isOf i) :=
        List.filter_cons_of_neg (by simp [own])
      obtain ⟨d', made, goesOn⟩ := mirrors_others rt apart h mirrors own
      rcases made with rfl | rfl
      · obtain ⟨alone, ⟨only, same⟩, last⟩ := ih next h' goesOn
        exact ⟨alone, ⟨only, same.trans skips.symm⟩, last⟩
      · obtain ⟨alone, ⟨only, same⟩, last⟩ := ih next (h'.act rt apart .cancel) goesOn
        refine ⟨.cancel :: alone, ⟨List.forall_mem_cons.mpr ⟨.inr rfl, only⟩, ?_⟩, last⟩
        rw [List.filter_cons_of_neg (by simp [Act.isOf, Act.doer?]), same, skips]

end Company

end Cancelable
