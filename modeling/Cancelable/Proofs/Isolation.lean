import Cancelable.Proofs.Finality
import Cancelable.Proofs.Mirror

/-!
# Runs on forks are isolated

What the runs of a company have in common is the request of the fiber that their forks were taken
from.  A run that begins after the request was made passes values on, which is no operation, and is
refused the first operation that it comes to; then it hands the cancellation on, frame by frame.

Main statement: runs on forks of one fiber interact through its request only (`Company.isolated`).
-/

namespace Cancelable

open Fibers (Seen)

variable {B : Backend} {P : Procedures} {ρ ι : Type}

/-! ## Runs that begin too late -/

/-- The stages of a run whose cancellation was requested before it began: it passes values on until
it comes to an operation, which it is refused, and then it hands the cancellation on. -/
inductive Stage.Barred (fs : Fibers) : Stage B P ρ → Prop where
  | unstarted : Barred fs .unstarted
  | passing (s : State B P ρ) (straight : s.isOnCourse = true) (depth : fs.mask s.fiber = 0) :
      Barred fs (.going s)
  | handing (s : State B P ρ) (control : s.control = .give (.error .canceled))
      (values : s.stack.waitsForValues = true) : Barred fs (.going s)
  | ended (ending : Ending ρ) : Barred fs (.ended ending)
  | dropped : Barred fs .dropped

/-- The stages of a run that was refused an operation with `h` frames on its stack, after it has
done `n` more things: it takes a frame off each time, and ends canceled. -/
inductive Stage.Refused (h n : Nat) : Stage B P ρ → Prop where
  | handing (s : State B P ρ) (control : s.control = .give (.error .canceled))
      (values : s.stack.waitsForValues = true) (height : s.stack.height + n ≤ h) :
      Refused h n (.going s)
  | canceled : Refused h n (.ended (.outcome .canceled))
  | dropped : Refused h n .dropped

/-- After as many steps as there were frames, and one more, a run that was refused an operation is
over. -/
theorem Stage.Refused.over_of_lt {h n : Nat} {stage : Stage B P ρ} (refused : stage.Refused h n)
    (late : h < n) : stage = .ended (.outcome .canceled) ∨ stage = .dropped := by
  cases refused with
  | handing s control values height => omega
  | canceled => exact .inl rfl
  | dropped => exact .inr rfl

/-- Passing values on leaves the mask alone. -/
theorem Moves.depth_of_onCourse {s s' : State B P ρ} {m n : Nat} (move : Moves s m s' n)
    (straight : s.isOnCourse = true) (plain : s.control.isOperation = false) : n = m := by
  obtain ⟨control, values⟩ := Bool.and_eq_true_iff.mp straight
  cases move with
  | stay => rfl
  | push frame _ => rfl
  | pop frame _ => rfl
  | enter => cases plain
  | lower => cases plain
  | finalize => cases control
  | restore frame holds =>
    obtain ⟨waits, -⟩ := Bool.and_eq_true_iff.mp values
    cases frame with
    | map g => cases holds
    | bind k => cases holds
    | _ => cases waits
  | embed => rfl
  | unembed => cases values

namespace State

variable {bodies : Bodies B P} {rt : Runtime} {s : State B P ρ} {sc : Scene B}

/-- An operation is refused where the cancellation is found. -/
theorem step_refused (canceled : sc.fibers.isCanceled s.fiber = true)
    (operation : s.control.isOperation = true) (values : s.stack.waitsForValues = true) :
    s.executes sc = [] ∧ (s.step bodies rt sc).stage.Refused s.stack.height 0 := by
  obtain ⟨f, calls, site, control, stack⟩ := s
  cases control with
  | run p =>
    have next : step bodies rt ⟨f, calls, site, .run p, stack⟩ sc = _ :=
      run_of_canceled operation canceled
    rw [next]
    refine ⟨?_, .handing _ rfl values (Nat.le_refl _)⟩
    have canceled : sc.fibers.isCanceled f = true := canceled
    simp [executes, canceled]
  | _ => cases operation

/-- A cancellation is handed on past frames that wait for values. -/
theorem step_handing {h n : Nat} (control : s.control = .give (.error .canceled))
    (values : s.stack.waitsForValues = true) (height : s.stack.height + n ≤ h) :
    (s.step bodies rt sc).stage.Refused h (n + 1) := by
  obtain ⟨f, calls, site, c, stack⟩ := s
  obtain rfl : c = .give (.error .canceled) := control
  cases stack with
  | nil => exact .canceled
  | embedded outside rest => cases values
  | cons frame rest =>
    obtain ⟨waits, values⟩ := Bool.and_eq_true_iff.mp values
    have below : rest.height + (n + 1) ≤ h := by
      simp only [Stack.height] at height
      omega
    cases frame with
    | map g => exact .handing _ rfl values below
    | bind k => exact .handing _ rfl values below
    | _ => cases waits

/-- Until a run is refused an operation, it passes values on. -/
theorem step_passing (rt : Runtime) (straight : s.isOnCourse = true)
    (plain : s.control.isOperation = false) (depth : sc.fibers.mask s.fiber = 0) :
    s.executes sc = [] ∧
      (s.step bodies rt sc).stage.Barred (s.step bodies rt sc).scene.fibers := by
  have idle : s.executes sc = [] := by
    obtain ⟨f, calls, site, control, stack⟩ := s
    cases control with
    | run p =>
      have leaf : p.isLeaf = false := Bool.eq_false_iff.mpr fun leaf => by
        cases plain.symm.trans (Program.isOperation_of_isLeaf leaf)
      simp [executes, leaf]
    | _ => rfl
  have passes {t : State B P ρ} {sc' : Scene B} (goes : (s.step bodies rt sc).GoesTo t sc')
      (straight' : t.isOnCourse = true) : Stage.Barred sc'.fibers (.going t) := by
    have moves := moves_of_goesTo goes
    refine .passing t straight' ?_
    rw [fiber_of_moves moves, moves.depth_of_onCourse straight plain, depth]
  refine ⟨idle, ?_⟩
  have next := onCourse_step bodies rt sc straight plain
  cases e : s.step bodies rt sc with
  | more t sc' =>
    rcases next with goesOn | ⟨x, sc'', ended⟩
    · exact passes (.inl e) (goesOn.at (.inl e))
    · cases e.symm.trans ended
  | waiting t sc' =>
    rcases next with goesOn | ⟨x, sc'', ended⟩
    · exact passes (.inr e) (goesOn.at (.inr e))
    · cases e.symm.trans ended
  | ended r sc' => exact .ended _
  | panicked panic sc' => exact .ended _

end State

theorem Stage.Refused.barred {h n : Nat} {stage : Stage B P ρ} (refused : stage.Refused h n)
    (fs : Fibers) : stage.Barred fs := by
  cases refused with
  | handing s control values height => exact .handing s control values
  | canceled => exact .ended _
  | dropped => exact .dropped

namespace Member

/-- A run whose cancellation was requested before it began. -/
structure Barred (F : Fiber) (m : Member B P ρ) (fs : Fibers) : Prop where
  requested : fs.isRequested F = true
  idle : ∀ moment ∈ m.history, moment.executed = []
  stage : m.stage.Barred fs

variable {F f : Fiber} {fs₀ fs : Fibers} {D : Discipline B} {job : Job B P}
  {m : Member B P job.ρ} {bodies : Bodies B P}

theorem Barred.reach (h : m.Barred F fs) {requested : Bool} {executed : List (Executed B P)}
    (idle : executed = []) {stage : Stage B P job.ρ} {sc : Scene B}
    (kept : sc.fibers.isRequested F = true) (barred : stage.Barred sc.fibers) :
    (m.reach f requested executed stage sc).1.Barred F sc.fibers where
  requested := kept
  idle := by
    intro moment mem
    rcases List.mem_append.mp mem with before | last
    · exact h.idle moment before
    · rw [List.mem_singleton.mp last]
      exact idle
  stage := barred

theorem Barred.isCanceled (h : m.Barred F fs) (sound : m.Sound F fs₀ D job fs)
    {s : State B P job.ρ} (going : m.stage = .going s) (depth : fs.mask s.fiber = 0) :
    (m.scene fs).fibers.isCanceled s.fiber = true := by
  have own : s.fiber.request = F.request := sound.request_eq _ (sound.going s going).1
  calc
    fs.isCanceled s.fiber = fs.isRequested s.fiber := Fibers.isCanceled_of_mask_zero depth
    _ = fs.isRequested F := Fibers.isRequested_congr own fs
    _ = true := h.requested

/-- A run that comes to an operation has passed values on so far. -/
theorem Barred.of_operation (h : m.Barred F fs) {s : State B P job.ρ} (going : m.stage = .going s)
    (operation : s.control.isOperation = true) :
    fs.mask s.fiber = 0 ∧ s.stack.waitsForValues = true := by
  have stage := h.stage
  rw [going] at stage
  cases stage with
  | passing _ straight depth => exact ⟨depth, (Bool.and_eq_true_iff.mp straight).2⟩
  | handing _ control values =>
    rw [control] at operation
    cases operation

/-- What a run does in its stage, if its cancellation was requested before it began: it carries out
nothing. -/
theorem Barred.step_going (bodies : Bodies B P) (rt : Runtime) (h : m.Barred F fs)
    (sound : m.Sound F fs₀ D job fs) {s : State B P job.ρ} (going : m.stage = .going s) :
    s.executes (m.scene fs) = [] ∧
      (s.step bodies rt (m.scene fs)).stage.Barred
        (s.step bodies rt (m.scene fs)).scene.fibers := by
  cases operation : s.control.isOperation with
  | true =>
    obtain ⟨depth, values⟩ := h.of_operation going operation
    have canceled := h.isCanceled sound going depth
    obtain ⟨idle, refused⟩ := State.step_refused canceled operation values
    exact ⟨idle, refused.barred _⟩
  | false =>
    have stage := h.stage
    rw [going] at stage
    cases stage with
    | passing _ straight depth => exact State.step_passing rt straight operation depth
    | handing _ control values =>
      have handed : (s.step bodies rt (m.scene fs)).stage.Refused s.stack.height 1 :=
        State.step_handing (n := 0) control values (Nat.le_refl _)
      exact ⟨by simp [State.executes, control], handed.barred _⟩

theorem Barred.step (rt : Runtime) (h : m.Barred F fs) (sound : m.Sound F fs₀ D job fs)
    (unused : fs.mask (fs.fork F).1 = 0)
    (kept : (m.step bodies rt F job fs).2.isRequested F = true) :
    (m.step bodies rt F job fs).1.Barred F (m.step bodies rt F job fs).2 := by
  have stage := h.stage
  generalize before : m.stage = t at stage
  cases t with
  | unstarted =>
    simp only [Member.step, before] at kept ⊢
    cases fork : m.fork? with
    | some f => exact h.reach rfl h.requested (.passing _ rfl (sound.fresh before f fork))
    | none => exact h.reach rfl h.requested (.passing _ rfl unused)
  | going s =>
    obtain ⟨idle, barred⟩ := h.step_going bodies rt sound before
    rw [step_of_going bodies rt F fs before] at kept ⊢
    refine h.reach idle kept ?_
    rw [Next.fibers_reported]
    exact barred
  | ended ending =>
    simp only [Member.step, before]
    exact h
  | dropped =>
    simp only [Member.step, before]
    exact h

theorem Barred.drop (h : m.Barred F fs) (kept : (m.drop F fs).2.isRequested F = true) :
    (m.drop F fs).1.Barred F (m.drop F fs).2 := by
  have stage := h.stage
  generalize before : m.stage = t at stage
  cases t with
  | unstarted =>
    simp only [Member.drop, before]
    exact ⟨h.requested, h.idle, .dropped⟩
  | going s =>
    simp only [Member.drop, before] at kept ⊢
    exact h.reach rfl kept .dropped
  | ended ending =>
    simp only [Member.drop, before]
    exact h
  | dropped =>
    simp only [Member.drop, before]
    exact h

end Member

namespace Company

variable [DecidableEq ι] {jobs : ι → Job B P} {bodies : Bodies B P} {F : Fiber}
  {holds : ι → Fiber → Prop} {fs₀ : Fibers} {c : Company jobs} {i : ι}

theorem isRequested_act (rt : Runtime) (apart : Apart bodies F jobs holds fs₀)
    (h : c.Sound F holds fs₀) (a : Act ι) (was : c.fibers.isRequested F = true) :
    (c.act bodies rt F a).fibers.isRequested F = true := by
  rcases h.act_cases rt apart a with ⟨j, now, -, same, does, -⟩ | ⟨-, same | same⟩
  · rw [same]
    exact does.requested was
  · rw [same]
    show (c.fibers.cancel F).isRequested F = true
    rw [Fibers.isRequested_cancel, was, Bool.or_true]
  · rw [same]
    exact was

/-- A run whose cancellation was requested before it began stays barred. -/
theorem barred_act (rt : Runtime) (apart : Apart bodies F jobs holds fs₀) (h : c.Sound F holds fs₀)
    (barred : (c.member i).Barred F c.fibers) (a : Act ι) :
    ((c.act bodies rt F a).member i).Barred F (c.act bodies rt F a).fibers := by
  have kept := isRequested_act rt apart h a barred.requested
  cases own : a.isOf i with
  | true =>
    rcases Act.eq_of_isOf own with rfl | rfl
    · simp only [act, member_put_self, fibers_put] at kept ⊢
      exact barred.step rt (h.member i) h.unused_fork kept
    · simp only [act, member_put_self, fibers_put] at kept ⊢
      exact barred.drop kept
  | false =>
    have mask_eq (g : Fiber) (fork : (c.member i).fork? = some g) :
        (c.act bodies rt F a).fibers.mask g = c.fibers.mask g :=
      (h.mask_act rt apart a).2 i own g fork
    rw [member_act_of_other bodies rt F c own]
    refine ⟨kept, barred.idle, ?_⟩
    have stage := barred.stage
    generalize before : (c.member i).stage = t at stage
    cases stage with
    | unstarted => exact .unstarted
    | passing s straight depth =>
      have fork : (c.member i).fork? = some s.fiber := ((h.member i).going s before).1
      exact .passing s straight ((mask_eq _ fork).trans depth)
    | handing s control values => exact .handing s control values
    | ended ending => exact .ended ending
    | dropped => exact .dropped

theorem barred_acts (rt : Runtime) (apart : Apart bodies F jobs holds fs₀) (h : c.Sound F holds fs₀)
    (barred : (c.member i).Barred F c.fibers) (l : List (Act ι)) :
    ((c.acts bodies rt F l).member i).Barred F (c.acts bodies rt F l).fibers := by
  induction l generalizing c with
  | nil => exact barred
  | cons a rest ih => exact ih (h.act rt apart a) (barred_act rt apart h barred a)

/-- A run that was refused an operation hands the cancellation on, whatever is done. -/
theorem refused_acts (bodies : Bodies B P) (rt : Runtime) (F : Fiber) {k n : Nat}
    (refused : (c.member i).stage.Refused k n) (l : List (Act ι)) :
    ((c.acts bodies rt F l).member i).stage.Refused k (n + l.countP (Act.isOf i)) := by
  induction l generalizing c n with
  | nil => exact refused
  | cons a rest ih =>
    cases own : a.isOf i with
    | false =>
      rw [List.countP_cons_of_neg (by simp [own])]
      refine ih ?_
      rw [member_act_of_other bodies rt F c own]
      exact refused
    | true =>
      rw [List.countP_cons_of_pos own, Nat.add_comm _ 1, ← Nat.add_assoc]
      refine ih ?_
      generalize before : (c.member i).stage = t at refused
      rcases Act.eq_of_isOf own with rfl | rfl
      · simp only [act, member_put_self]
        cases refused with
        | handing s control values height =>
          rw [Member.step_of_going bodies rt F _ before]
          exact State.step_handing control values height
        | canceled =>
          simp only [Member.step, before]
          exact .canceled
        | dropped =>
          simp only [Member.step, before]
          exact .dropped
      · simp only [act, member_put_self, Member.drop, before]
        cases refused with
        | handing s control values height => exact .dropped
        | canceled =>
          simp only [before]
          exact .canceled
        | dropped =>
          simp only [before]
          exact .dropped

/-- A run that is barred is refused the operation that it has come to as soon as it does
anything. -/
theorem refused_of_operation (rt : Runtime) (apart : Apart bodies F jobs holds fs₀)
    (h : c.Sound F holds fs₀) (barred : (c.member i).Barred F c.fibers) {s : State B P (jobs i).ρ}
    (going : (c.member i).stage = .going s) (operation : s.control.isOperation = true)
    (l : List (Act ι)) (some : 0 < l.countP (Act.isOf i)) :
    ((c.acts bodies rt F l).member i).stage.Refused s.stack.height
      (l.countP (Act.isOf i) - 1) := by
  induction l generalizing c with
  | nil => cases some
  | cons a rest ih =>
    cases own : a.isOf i with
    | false =>
      have skips : (a :: rest).countP (Act.isOf i) = rest.countP (Act.isOf i) :=
        List.countP_cons_of_neg (by simp [own])
      rw [skips] at some ⊢
      refine ih (h.act rt apart a) (barred_act rt apart h barred a) ?_ some
      rw [member_act_of_other bodies rt F c own]
      exact going
    | true =>
      have first : ((c.act bodies rt F a).member i).stage.Refused s.stack.height 0 := by
        rcases Act.eq_of_isOf own with rfl | rfl
        · obtain ⟨depth, values⟩ := barred.of_operation going operation
          have canceled := barred.isCanceled (h.member i) going depth
          simp only [act, member_put_self, Member.step_of_going bodies rt F _ going]
          exact (State.step_refused canceled operation values).2
        · simp only [act, member_put_self, Member.drop, going]
          exact .dropped
      have last := refused_acts bodies rt F first rest
      rw [List.countP_cons_of_pos own, Nat.add_sub_cancel]
      rwa [Nat.zero_add] at last

end Company

/-! ## The company -/

/-- How a run has ended, if it has. -/
def Stage.ending? : Stage B P ρ → Option (Ending ρ)
  | .ended ending => some ending
  | _ => none

/-- The same is to be seen of a run in two companies. -/
structure Member.ShowsSame (m m' : Member B P ρ) : Prop where
  history_eq : m.history = m'.history
  world_eq : m.world = m'.world
  events_eq : m.events = m'.events
  ending_eq : m.stage.ending? = m'.stage.ending?

theorem Member.Mirrors.showsSame {F : Fiber} {holds : Fiber → Prop} {m m' : Member B P ρ}
    {fs fs' : Fibers} (h : m.Mirrors F holds m' fs fs') : m'.ShowsSame m where
  history_eq := h.history_eq.symm
  world_eq := h.world_eq.symm
  events_eq := h.events_eq.symm
  ending_eq := by
    have stage := h.stage
    revert stage
    generalize m.stage = t
    generalize m'.stage = t'
    rintro (_ | _ | _ | _) <;> rfl

namespace Company

variable [DecidableEq ι] {jobs : ι → Job B P} {bodies : Bodies B P} {F : Fiber}
  {holds : ι → Fiber → Prop} {fs₀ : Fibers}

/-- Runs on forks of one fiber interact through its request only.  Let any number of runs be under
way, each in a fork of its own, on a handle and in a world of its own, whose closures hold no fiber
of another run; and let them take steps, be dropped, and be canceled in whatever order.  Then each
run alone, doing what it does itself and requested to cancel at the same point, shows the same: it
carries out the same operations, at the same mask depths, and ends in the same way.  Nothing that is
done changes the mask of the fiber or of another run.  And once any of the fibers is canceled, a run
that has not begun carries out nothing: if it comes to an operation, it is refused it with the next
thing that it does, and is over after one more thing for each of its frames and one for its end. -/
theorem isolated (rt : Runtime) (apart : Apart bodies F jobs holds fs₀) (worlds : ι → B.World)
    (l : List (Act ι)) :
    let start := Company.start jobs worlds fs₀
    let c := start.acts bodies rt F l
    (∀ i, ∃ alone, Alone i l alone ∧
      ((start.acts bodies rt F alone).member i).ShowsSame (c.member i)) ∧
    (∀ a, (c.act bodies rt F a).fibers.mask F = c.fibers.mask F ∧
      ∀ j, a.isOf j = false → ∀ g, (c.member j).fork? = some g →
        (c.act bodies rt F a).fibers.mask g = c.fibers.mask g) ∧
    ∀ f, (f = F ∨ ∃ j, (c.member j).fork? = some f) → c.fibers.isRequested f = true →
      ∀ i, (c.member i).stage = .unstarted → ∀ l',
        let c' := c.acts bodies rt F l'
        (∀ moment ∈ (c'.member i).history, moment.executed = []) ∧
        ∀ s, (c'.member i).stage = .going s → s.control.isOperation = true → ∀ l'',
          let stage := ((c'.acts bodies rt F l'').member i).stage
          let n := l''.countP (Act.isOf i)
          (0 < n → stage.Refused s.stack.height (n - 1)) ∧
            (s.stack.height + 1 < n → stage = .ended (.outcome .canceled) ∨ stage = .dropped) := by
  intro start c
  have begun : start.Sound F holds fs₀ := .start apart worlds
  have sound : c.Sound F holds fs₀ := begun.acts rt apart l
  refine ⟨?_, fun a => sound.mask_act rt apart a, ?_⟩
  · intro i
    have same : fs₀.SameOn (Seen F (holds i)) fs₀ := fun g _ => ⟨rfl, rfl⟩
    have mirrors : (start.member i).Mirrors F (holds i) (start.member i) fs₀ fs₀ :=
      ⟨rfl, rfl, rfl, same, .unstarted⟩
    obtain ⟨alone, only, last⟩ := exists_alone rt apart begun begun mirrors l
    exact ⟨alone, only, last.showsSame⟩
  · intro f among requested i unstarted l' c'
    have shared : f.request = F.request := by
      rcases among with rfl | ⟨j, fork⟩
      · rfl
      · exact (sound.member j).request_eq f fork
    have barred : (c.member i).Barred F c.fibers := by
      refine ⟨(Fibers.isRequested_congr shared.symm _).trans requested, ?_, ?_⟩
      · rw [((sound.member i).unstarted unstarted).2]
        nofun
      · rw [unstarted]
        exact .unstarted
    have sound' : c'.Sound F holds fs₀ := sound.acts rt apart l'
    have barred' : (c'.member i).Barred F c'.fibers := barred_acts rt apart sound barred l'
    refine ⟨barred'.idle, ?_⟩
    intro s going operation l'' stage n
    have refused (some : 0 < n) : stage.Refused s.stack.height (n - 1) :=
      refused_of_operation rt apart sound' barred' going operation l'' some
    refine ⟨refused, fun late => ?_⟩
    have later : s.stack.height < n - 1 := by omega
    exact (refused (by omega)).over_of_lt later

/-- A program whose region makes a blocking call and then writes a note is compiled and run three
times.  The first run leaves its region while the second one is inside, which stays masked, carries
on when the cancellation is requested, and ends canceled.  The third run begins after that. -/
theorem isolated_in_regions :
    let p : Program .notes .none .largeObject Unit :=
      .uncancelable fun _ =>
        .bind (.suspend .blocking (Host.update fun written : List Nat => (.ok (), written ++ [1])))
          fun () => .note 2
    let k := (Kleisli.compile p {}).1
    let start := Company.start (fun _ : Fin 3 => k.job ()) (fun _ => []) (Kleisli.compile p {}).2
    let steps (n : Nat) (i : Fin 3) : List (Act (Fin 3)) := List.replicate n (.step i)
    let l := steps 5 0 ++ steps 5 1 ++ steps 5 0 ++ [.cancel] ++ steps 5 1
    let c := start.acts Bodies.none .stepped k.fiber l
    let begun := c.acts Bodies.none .stepped k.fiber (steps 1 2)
    let late := begun.acts Bodies.none .stepped k.fiber (steps 2 2)
    ((c.member 0).history.map Moment.mask = [0, 1, 1, 1, 1, 1, 1, 1, 0, 0] ∧
      (c.member 1).history.map Moment.mask = [0, 1, 1, 1, 1, 1, 1, 1, 0, 0]) ∧
    (((c.member 0).stage matches .ended (.outcome (.succeeded ()))) ∧
      ((c.member 1).stage matches .ended (.outcome .canceled)) ∧
        ∃ alone, Alone 1 l alone ∧
          ((start.acts Bodies.none .stepped k.fiber alone).member 1).ShowsSame (c.member 1)) ∧
    ((late.member 2).stage = .ended (.outcome .canceled) ∨ (late.member 2).stage = .dropped) ∧
      (late.member 2).world = [] := by
  intro p k start steps l c begun late
  have host {α : Type} {F : Fiber} {i : Fin 3} (f : List Nat → α × List Nat) :
      (Discipline.ofRun .notes F (fun (_ : Fin 3) _ => False) i).code (Host.update f) :=
    ⟨fun _ _ _ _ => rfl, fun _ _ _ raised => nomatch raised⟩
  have apart : Apart Bodies.none k.fiber (fun _ : Fin 3 => k.job ()) (fun _ _ => False)
      (Kleisli.compile p {}).2 :=
    { unused := fun _ _ => rfl
      knows := by
        rintro n ⟨⟩
        exact Nat.zero_lt_one
      knows_held := nofun
      knows_fork := nofun
      fork_request := nofun
      fork_fresh := nofun
      fork_ne := nofun
      forks_ne := nofun
      held_ne := nofun
      kept := fun _ => ⟨fun _ _ => ⟨fun _ _ _ _ => rfl, nofun⟩, ⟨fun _ _ _ _ => rfl, nofun⟩,
        ⟨fun _ _ _ _ => rfl, nofun⟩, nofun⟩
      obeys := fun _ _ _ => ⟨host _, fun _ => host _⟩ }
  obtain ⟨alone, -, barred⟩ := isolated .stepped apart (fun _ => []) l
  have requested : c.fibers.isRequested k.fiber = true := by decide +kernel
  have unstarted : (c.member 2).stage = .unstarted := rfl
  obtain ⟨-, refused⟩ := barred k.fiber (.inl rfl) requested 2 unstarted (steps 1 2)
  obtain ⟨-, ended⟩ := refused _ rfl rfl (steps 2 2)
  have masks : (c.member 0).history.map Moment.mask = [0, 1, 1, 1, 1, 1, 1, 1, 0, 0] ∧
      (c.member 1).history.map Moment.mask = [0, 1, 1, 1, 1, 1, 1, 1, 0, 0] := by decide +kernel
  have idle : List.isEmpty (late.member 2).world := by decide +kernel
  exact ⟨masks, ⟨by decide +kernel, by decide +kernel, alone 1⟩, ended (by decide),
    List.isEmpty_iff.mp idle⟩

end Company
end Cancelable
