import Cancelable.Effect
import Cancelable.Proofs.Correspondence
import Cancelable.Proofs.Polls

/-!
# Accounts of effects

An account says what may come of something that is run: from a scene, the operations that are
carried out, in this order, the end, and the scene that is left.  A program in a fiber has the
account of its steps.  The account of an effect is put together by recursion on the effect from the
accounts of the programs in it, each of which is run in a fork of its own and reports its end.

Turns and their bounds do not occur in an account.  They only decide how far a run gets.

Main statements: an effect comes to an end with some bound exactly if its account says so
(`Effect.run_iff_account`); no account says two things (`Effect.account_unique`); and the account of
a sequence is the sequence of the accounts (`Program.account_bind`).
-/

namespace Cancelable

variable {B : Backend} {P : Procedures} {a : Algebra} {α β σ ρ : Type}

/-! ## Accounts -/

/-- What may come of something that is run from a scene: operations, an end, and a scene. -/
abbrev Account (B : Backend) (P : Procedures) (α : Type) : Type 1 :=
  Scene B → List (Executed B P) → Exit α → Scene B → Prop

namespace Account

/-- Nothing is carried out, and it ends so. -/
def atOnce (e : Exit α) : Account B P α :=
  fun sc ops e' sc' => ops = [] ∧ e' = e ∧ sc' = sc

/-- What comes of a result comes of an end, unless host code has broken off. -/
def onward (next : Except Interrupted α → Account B P β) : Exit α → Account B P β
  | .gives r => next r
  | .breaks panic => atOnce (.breaks panic)

/-- What comes of a value comes of a result, unless there is none. -/
def onValue (next : α → Account B P β) : Except Interrupted α → Account B P β
  | .ok x => next x
  | .error i => atOnce (.gives (.error i))

/-- What comes of an interruption comes of a result, unless there is none. -/
def onError (next : Interrupted → Account B P α) : Except Interrupted α → Account B P α
  | .ok x => atOnce (.gives (.ok x))
  | .error i => next i

/-- One thing, and then what comes of its result. -/
def andThen (first : Account B P α) (next : Except Interrupted α → Account B P β) :
    Account B P β :=
  fun sc ops e sc' => ∃ ops₁ e₁ sc₁ ops₂,
    first sc ops₁ e₁ sc₁ ∧ ops = ops₁ ++ ops₂ ∧ onward next e₁ sc₁ ops₂ e sc'

/-- Host code, and then what comes of its value. -/
def hosting (code : Host B.World σ) (next : σ → Account B P α) : Account B P α :=
  fun sc => onward (onValue next) (.ofThunk (sc.host code).1) (sc.host code).2

/-- Host code whose value is that of the whole. -/
theorem hosting_iff {code : Host B.World α} {sc sc' : Scene B} {ops : List (Executed B P)}
    {e : Exit α} :
    hosting code (fun x => atOnce (.gives (.ok x))) sc ops e sc' ↔
      ops = [] ∧ e = .ofThunk (sc.host code).1 ∧ sc' = (sc.host code).2 := by
  unfold hosting
  cases (sc.host code).1 <;> rfl

/-- What is left, whatever is carried out. -/
def leaves (account : Account B P α) (sc : Scene B) (e : Exit α) (sc' : Scene B) : Prop :=
  ∃ ops, account sc ops e sc'

end Account

section Accounts

variable (bodies : Bodies B P) (rt : Runtime)

/-- The account of a program that is run in a fiber and left alone. -/
def Program.account (f : Fiber) (handle : B.Handle a) (p : Program B P a α) : Account B P α :=
  fun sc ops e sc' => ∃ n, (State.start f handle p sc.fibers).Ends bodies rt n sc ops e sc'

/-- The account of a program that reports its end. -/
def Program.reporting (f : Fiber) (handle : B.Handle a) (p : Program B P a α) : Account B P α :=
  fun sc ops e sc' => ∃ sc₁, p.account bodies rt f handle sc ops e sc₁ ∧ sc' = e.report a sc₁

/-- The account of an effect. -/
def Effect.account (handle : B.Handle a) : {α : Type} → Effect B P a α → Account B P α
  | _, .pure x => .atOnce (.gives (.ok x))
  | _, .build code k => .hosting code fun x => (k x).account handle
  | _, .kleisli k => fun sc =>
    k.program.reporting bodies rt (sc.fibers.fork k.fiber).1 handle
      { sc with fibers := (sc.fibers.fork k.fiber).2 }
  | _, .compile p => fun sc =>
    p.reporting bodies rt sc.fibers.fresh.1 handle { sc with fibers := sc.fibers.fresh.2 }
  | _, .map e f =>
    (e.account handle).andThen (.onValue fun x => .hosting (f x) fun y => .atOnce (.gives (.ok y)))
  | _, .andThen e k => (e.account handle).andThen (.onValue fun x => (k x).account handle)
  | _, .orElse e k => (e.account handle).andThen (.onError fun why => (k why).account handle)

/-- The account of an effect in progress. -/
def EffectRun.account (handle : B.Handle a) : {α : Type} → EffectRun B P a α → Account B P α
  | _, .program r => fun sc ops e sc' =>
    ∃ sc₁ n, r.state.Ends bodies rt n sc ops e sc₁ ∧ sc' = e.report a sc₁
  | _, .map r f =>
    (r.account handle).andThen (.onValue fun x => .hosting (f x) fun y => .atOnce (.gives (.ok y)))
  | _, .andThen r k =>
    (r.account handle).andThen (.onValue fun x => (k x).account bodies rt handle)
  | _, .orElse r k =>
    (r.account handle).andThen (.onError fun why => (k why).account bodies rt handle)

end Accounts

/-! ## What a run shows is true -/

section Truth

variable (m : Machine B P) (handle : B.Handle a)

/-- A turn of an effect says what its account says. -/
abbrev EffectTurn.Shows (account : Account B P α) (sc : Scene B) (t : EffectTurn B P a α) : Prop :=
  Turn.Shows (fun r => (EffectRun.account m.bodies m.runtime handle r).leaves) (account.leaves sc) t

variable {m handle}

/-- What has ended at once says so. -/
theorem EffectTurn.shows_ended (r : Except Interrupted α) (sc : Scene B) :
    EffectTurn.Shows m handle (.atOnce (.gives r)) sc (.ended r, sc) :=
  ⟨[], rfl, rfl, rfl⟩

theorem EffectTurn.shows_hosting {code : Host B.World σ} {account : σ → Account B P α}
    {sc : Scene B} {next : σ → Scene B → EffectTurn B P a α}
    (rest : ∀ x sc₁, EffectTurn.Shows m handle (account x) sc₁ (next x sc₁)) :
    EffectTurn.Shows m handle (.hosting code account) sc
      (match sc.host code with
        | (.ok x, sc) => next x sc
        | (.error panic, sc) => (.panicked panic, sc)) := by
  cases hosted : sc.host code with
  | mk exit sc₁ =>
    have account_eq : Account.hosting code account sc =
        Account.onward (.onValue account) (.ofThunk exit) sc₁ := by
      rw [Account.hosting, hosted]
    cases exit with
    | ok x =>
      refine (rest x sc₁).mono ?_
      rintro e sc' ⟨ops, tells⟩
      refine ⟨ops, ?_⟩
      rw [account_eq]
      exact tells
    | error panic =>
      refine ⟨[], ?_⟩
      rw [account_eq]
      exact ⟨rfl, rfl, rfl⟩

/-- Going on from a turn says what the sequence of the accounts says. -/
theorem EffectTurn.shows_andThen {account : Account B P α} {sc : Scene B}
    {t : EffectTurn B P a α} (wrap : EffectRun B P a α → EffectRun B P a β)
    {after : Except Interrupted α → Account B P β}
    {next : Except Interrupted α → Scene B → EffectTurn B P a β}
    (first : EffectTurn.Shows m handle account sc t)
    (wrapped : ∀ r, (wrap r).account m.bodies m.runtime handle =
      (r.account m.bodies m.runtime handle).andThen after)
    (rest : ∀ r sc₁, EffectTurn.Shows m handle (after r) sc₁ (next r sc₁)) :
    EffectTurn.Shows m handle (account.andThen after) sc (t.andThen wrap next) := by
  obtain ⟨r | r | panic | _, sc₁⟩ := t
  · rintro e sc' ⟨ops, tells⟩
    rw [wrapped] at tells
    obtain ⟨ops₁, e₁, sc₂, ops₂, before, rfl, later⟩ := tells
    obtain ⟨ops', before⟩ := first e₁ sc₂ ⟨ops₁, before⟩
    exact ⟨ops' ++ ops₂, ops', e₁, sc₂, ops₂, before, rfl, later⟩
  · obtain ⟨ops₁, first⟩ := first
    refine (rest r sc₁).mono ?_
    rintro e sc' ⟨ops, tells⟩
    exact ⟨ops₁ ++ ops, ops₁, .gives r, sc₁, ops, first, rfl, tells⟩
  · obtain ⟨ops₁, first⟩ := first
    exact ⟨ops₁ ++ [], ops₁, .breaks panic, sc₁, [], first, rfl, rfl, rfl, rfl⟩
  · exact trivial

theorem EffectTurn.shows_mapped (f : α → Host B.World β) (r : Except Interrupted α)
    (sc : Scene B) :
    EffectTurn.Shows m handle
      (.onValue (fun x => .hosting (f x) fun y => .atOnce (.gives (.ok y))) r) sc
      (.mapped f r sc) := by
  cases r with
  | error i => exact EffectTurn.shows_ended (.error i) sc
  | ok x => exact EffectTurn.shows_hosting fun y sc₁ => EffectTurn.shows_ended (.ok y) sc₁

/-- A turn of a program in an effect says the truth about it. -/
theorem EffectTurn.shows_program (r : Run B P a α) (sc : Scene B) :
    EffectTurn.Shows m handle (EffectRun.account m.bodies m.runtime handle (.program r)) sc
      (Turn.wrap .program (r.turn m sc)) := by
  have truth := Run.turn_shows m r sc
  revert truth
  generalize r.turn m sc = t
  obtain ⟨r₁ | result | panic | _, sc₁⟩ := t
  · rintro truth e sc' ⟨ops, sc₂, n, ends, rfl⟩
    obtain ⟨sc₃, ⟨n', ops', ends'⟩, same⟩ := truth e _ ⟨sc₂, ⟨n, ops, ends⟩, rfl⟩
    exact ⟨ops', sc₃, n', ends', same⟩
  · rintro ⟨sc₂, ⟨n, ops, ends⟩, same⟩
    exact ⟨ops, sc₂, n, ends, same⟩
  · rintro ⟨sc₂, ⟨n, ops, ends⟩, same⟩
    exact ⟨ops, sc₂, n, ends, same⟩
  · exact id

theorem EffectTurn.shows_launch (f : Fiber) (p : Program B P a α) (sc : Scene B) :
    EffectTurn.Shows m handle (p.reporting m.bodies m.runtime f handle) sc
      (.launch m f handle p sc) := by
  refine (EffectTurn.shows_program (.start f handle p sc.fibers) sc).mono ?_
  rintro e sc' ⟨ops, sc₁, n, ends, same⟩
  exact ⟨ops, sc₁, ⟨n, ends⟩, same⟩

/-- The first turn of an effect says the truth about it. -/
theorem Effect.start_shows (e : Effect B P a α) (sc : Scene B) :
    EffectTurn.Shows m handle (e.account m.bodies m.runtime handle) sc (e.start m handle sc) := by
  induction e generalizing sc with
  | pure x => exact EffectTurn.shows_ended (.ok x) sc
  | build code k ih =>
    simp only [Effect.start]
    exact EffectTurn.shows_hosting ih
  | kleisli k => exact EffectTurn.shows_launch _ k.program _
  | compile p => exact EffectTurn.shows_launch _ p _
  | map e f ih =>
    exact EffectTurn.shows_andThen (.map · f) (ih sc) (fun r => rfl) (EffectTurn.shows_mapped f)
  | andThen e k ih ih_next =>
    simp only [Effect.start]
    refine EffectTurn.shows_andThen (.andThen · k) (ih sc) (fun r => rfl) ?_
    rintro (i | x) sc₁
    · exact EffectTurn.shows_ended (.error i) sc₁
    · exact ih_next x sc₁
  | orElse e k ih ih_next =>
    simp only [Effect.start]
    refine EffectTurn.shows_andThen (.orElse · k) (ih sc) (fun r => rfl) ?_
    rintro (i | x) sc₁
    · exact ih_next i sc₁
    · exact EffectTurn.shows_ended (.ok x) sc₁

/-- Every turn of an effect in progress says the truth about it. -/
theorem EffectRun.turn_shows (r : EffectRun B P a α) (sc : Scene B) :
    EffectTurn.Shows m handle (r.account m.bodies m.runtime handle) sc (r.turn m handle sc) := by
  induction r generalizing sc with
  | program r => exact EffectTurn.shows_program r sc
  | map r f ih =>
    exact EffectTurn.shows_andThen (.map · f) (ih sc) (fun r => rfl) (EffectTurn.shows_mapped f)
  | andThen r k ih =>
    refine EffectTurn.shows_andThen (.andThen · k) (ih sc) (fun r => rfl) ?_
    rintro (i | x) sc₁
    · exact EffectTurn.shows_ended (.error i) sc₁
    · exact (k x).start_shows sc₁
  | orElse r k ih =>
    refine EffectTurn.shows_andThen (.orElse · k) (ih sc) (fun r => rfl) ?_
    rintro (i | x) sc₁
    · exact (k i).start_shows sc₁
    · exact EffectTurn.shows_ended (.ok x) sc₁

/-- So does the end of a run. -/
theorem Effect.run_shows (e : Effect B P a α) (sc : Scene B) :
    Ending.Shows (((e.account m.bodies m.runtime handle).leaves) sc) (e.run m handle sc) :=
  Turn.finish_shows EffectRun.turn_shows m.bound (e.start_shows sc)

end Truth

/-! ## What an account says is shown -/

namespace Exit

/-- The turn that ends so. -/
def turn {S : Type 1} : Exit ρ → Turn S ρ
  | gives r => .ended r
  | breaks panic => .panicked panic

/-- How a run ends that has ended so. -/
def ending : Exit ρ → Ending ρ
  | gives r => .outcome (.ofExcept r)
  | breaks panic => .panicked panic

theorem ending?_turn {S : Type 1} (e : Exit ρ) : (e.turn : Turn S ρ).ending? = some e.ending := by
  cases e <;> rfl

end Exit

theorem Turn.nth_add {S : Type 1} {turn : S → Scene B → Turn S ρ × Scene B}
    (first : Turn S ρ × Scene B) (m n : Nat) :
    nth turn (nth turn first m) n = nth turn first (m + n) := by
  induction n with
  | zero => rfl
  | succ n ih => exact congrArg (again turn) ih

/-- Turns of what wraps a run are turns of the run. -/
theorem Turn.nth_wrap {S T : Type 1} {turn : S → Scene B → Turn S ρ × Scene B}
    {turn' : T → Scene B → Turn T ρ × Scene B} (f : S → T)
    (wrapped : ∀ s sc, turn' (f s) sc = wrap f (turn s sc)) (first : Turn S ρ × Scene B) (n : Nat) :
    nth turn' (wrap f first) n = wrap f (nth turn first n) := by
  induction n with
  | zero => rfl
  | succ n ih =>
    rw [nth, ih, nth]
    obtain ⟨s | r | panic | _, sc⟩ := nth turn first n
    · exact wrapped s sc
    · rfl
    · rfl
    · rfl

/-- With enough bound a program that ends comes to its end in some number of turns. -/
theorem Run.nth_of_ends {bodies : Bodies B P} {rt : Runtime} {n : Nat} {s : State B P ρ}
    {sc sc' : Scene B} {ops : List (Executed B P)} {e : Exit ρ}
    (ends : s.Ends bodies rt n sc ops e sc') {bound fuel : Nat} (enough : n ≤ bound)
    (left : n ≤ fuel) :
    ∃ k, k ≤ n ∧ Turn.nth (Run.turn ⟨bodies, rt, bound⟩)
      ((⟨s⟩ : Run B P a ρ).turn ⟨bodies, rt, fuel⟩ sc) k = (e.turn, e.report a sc') := by
  induction n generalizing s sc ops fuel with
  | zero => exact ends.elim
  | succ n ih =>
    obtain ⟨ops', rfl, after⟩ := ends
    obtain ⟨fuel, rfl⟩ : ∃ m, fuel = m + 1 := ⟨fuel - 1, by omega⟩
    have enough : n ≤ bound := Nat.le_of_succ_le enough
    have left : n ≤ fuel := Nat.le_of_succ_le_succ left
    rw [Run.turn_succ]
    cases next : s.step bodies rt sc with
    | more s₁ sc₁ =>
      rw [next] at after
      obtain ⟨k, le, comes⟩ := ih after enough left
      exact ⟨k, Nat.le_succ_of_le le, comes⟩
    | waiting s₁ sc₁ =>
      -- the next turn begins with all steps that the bound allows
      rw [next] at after
      obtain ⟨k, le, comes⟩ := ih after enough enough
      refine ⟨k + 1, Nat.succ_le_succ le, ?_⟩
      rw [← Turn.nth_again]
      exact comes
    | ended r sc₁ =>
      rw [next] at after
      obtain ⟨rfl, rfl, rfl⟩ := after
      exact ⟨0, Nat.zero_le _, rfl⟩
    | panicked panic sc₁ =>
      rw [next] at after
      obtain ⟨rfl, rfl, rfl⟩ := after
      exact ⟨0, Nat.zero_le _, rfl⟩

/-- Turns of what goes on from a turn are turns of that, as long as it has not ended. -/
theorem EffectTurn.nth_andThen {m : Machine B P} {handle : B.Handle a}
    {wrap : EffectRun B P a α → EffectRun B P a β}
    {next : Except Interrupted α → Scene B → EffectTurn B P a β}
    (wrapped : ∀ r sc, (wrap r).turn m handle sc = (r.turn m handle sc).andThen wrap next)
    (t : EffectTurn B P a α) (n : Nat) :
    ∃ k, k ≤ n ∧ Turn.nth (EffectRun.turn m handle) (t.andThen wrap next) k =
      EffectTurn.andThen (Turn.nth (EffectRun.turn m handle) t n) wrap next := by
  induction n generalizing t with
  | zero => exact ⟨0, Nat.le_refl 0, rfl⟩
  | succ n ih =>
    obtain ⟨k, le, same⟩ := ih (Turn.again (EffectRun.turn m handle) t)
    rw [Turn.nth_again] at same
    obtain ⟨r | result | panic | _, sc⟩ := t
    · refine ⟨k + 1, Nat.succ_le_succ le, ?_⟩
      rw [← Turn.nth_again]
      exact (congrArg (Turn.nth _ · k) (wrapped r sc)).trans same
    · exact ⟨k, Nat.le_succ_of_le le, same⟩
    · exact ⟨k, Nat.le_succ_of_le le, same⟩
    · exact ⟨k, Nat.le_succ_of_le le, same⟩

section Completeness

variable (bodies : Bodies B P) (rt : Runtime) (handle : B.Handle a)

/-- With every bound that is large enough, turns that begin so come to an end and leave a scene. -/
def EffectTurn.ComesTo (first : Nat → EffectTurn B P a α) (e : Exit α) (sc' : Scene B) : Prop :=
  ∃ enough, ∀ bound, enough ≤ bound → ∃ k, k ≤ enough ∧
    Turn.nth (EffectRun.turn ⟨bodies, rt, bound⟩ handle) (first bound) k = (e.turn, sc')

/-- Turns that begin so come to whatever end an account says. -/
def EffectTurn.Completes (account : Account B P α) (sc : Scene B)
    (first : Nat → EffectTurn B P a α) : Prop :=
  ∀ ops e sc', account sc ops e sc' → ComesTo bodies rt handle first e sc'

variable {bodies rt handle}

namespace EffectTurn

theorem completes_ended (r : Except Interrupted α) (sc : Scene B) :
    Completes bodies rt handle (.atOnce (.gives r)) sc fun _ => (.ended r, sc) := by
  rintro _ _ _ ⟨rfl, rfl, rfl⟩
  exact ⟨0, fun _ _ => ⟨0, Nat.le_refl 0, rfl⟩⟩

theorem completes_hosting {code : Host B.World σ} {account : σ → Account B P α} {sc : Scene B}
    {next : Nat → σ → Scene B → EffectTurn B P a α}
    (rest : ∀ x sc₁, Completes bodies rt handle (account x) sc₁ fun bound => next bound x sc₁) :
    Completes bodies rt handle (.hosting code account) sc fun bound =>
      match sc.host code with
      | (.ok x, sc) => next bound x sc
      | (.error panic, sc) => (.panicked panic, sc) := by
  intro ops e sc' tells
  unfold Account.hosting at tells
  cases hosted : sc.host code with
  | mk exit sc₁ =>
    rw [hosted] at tells
    cases exit with
    | ok x => exact rest x sc₁ ops e sc' tells
    | error panic =>
      obtain ⟨rfl, rfl, rfl⟩ := tells
      exact ⟨0, fun _ _ => ⟨0, Nat.le_refl 0, rfl⟩⟩

theorem completes_andThen {account : Account B P α} {sc : Scene B}
    {first : Nat → EffectTurn B P a α} {wrap : EffectRun B P a α → EffectRun B P a β}
    {after : Except Interrupted α → Account B P β}
    {next : Nat → Except Interrupted α → Scene B → EffectTurn B P a β}
    (before : Completes bodies rt handle account sc first)
    (wrapped : ∀ bound r sc, (wrap r).turn ⟨bodies, rt, bound⟩ handle sc =
      (r.turn ⟨bodies, rt, bound⟩ handle sc).andThen wrap (next bound))
    (rest : ∀ r sc₁, Completes bodies rt handle (after r) sc₁ fun bound => next bound r sc₁) :
    Completes bodies rt handle (account.andThen after) sc fun bound =>
      (first bound).andThen wrap (next bound) := by
  rintro ops e sc' ⟨ops₁, e₁, sc₁, ops₂, tells, rfl, later⟩
  obtain ⟨enough, comes⟩ := before ops₁ e₁ sc₁ tells
  -- after as many turns as the first one takes, the second one begins
  have begins (bound : Nat) (le : enough ≤ bound) : ∃ k, k ≤ enough ∧
      Turn.nth (EffectRun.turn ⟨bodies, rt, bound⟩ handle)
        ((first bound).andThen wrap (next bound)) k =
          EffectTurn.andThen (e₁.turn, sc₁) wrap (next bound) := by
    obtain ⟨k, k_le, last⟩ := comes bound le
    obtain ⟨l, l_le, same⟩ := nth_andThen (wrapped bound) (first bound) k
    rw [last] at same
    exact ⟨l, Nat.le_trans l_le k_le, same⟩
  cases e₁ with
  | gives r =>
    obtain ⟨enough', comes'⟩ := rest r sc₁ ops₂ e sc' later
    refine ⟨enough + enough', fun bound le => ?_⟩
    obtain ⟨k, k_le, here⟩ := begins bound (Nat.le_of_add_right_le le)
    obtain ⟨l, l_le, last⟩ := comes' bound (Nat.le_of_add_left_le le)
    refine ⟨k + l, Nat.add_le_add k_le l_le, ?_⟩
    rw [← Turn.nth_add, here]
    exact last
  | breaks panic =>
    obtain ⟨rfl, rfl, rfl⟩ := later
    exact ⟨enough, begins⟩

theorem completes_launch (f : Fiber) (p : Program B P a α) (sc : Scene B) :
    Completes bodies rt handle (p.reporting bodies rt f handle) sc fun bound =>
      .launch ⟨bodies, rt, bound⟩ f handle p sc := by
  rintro ops e sc' ⟨sc₁, ⟨n, ends⟩, rfl⟩
  refine ⟨n, fun bound le => ?_⟩
  obtain ⟨k, k_le, last⟩ := Run.nth_of_ends ends le le
  refine ⟨k, k_le, ?_⟩
  show Turn.nth _ (Turn.wrap EffectRun.program _) k = _
  rw [Turn.nth_wrap EffectRun.program fun r sc => rfl]
  refine (congrArg (Turn.wrap EffectRun.program) last).trans ?_
  cases e <;> rfl

end EffectTurn

/-- An effect comes to whatever end its account says. -/
theorem Effect.start_completes (e : Effect B P a α) (sc : Scene B) :
    EffectTurn.Completes bodies rt handle (e.account bodies rt handle) sc fun bound =>
      e.start ⟨bodies, rt, bound⟩ handle sc := by
  induction e generalizing sc with
  | pure x => exact EffectTurn.completes_ended (.ok x) sc
  | build code k ih =>
    simp only [Effect.start]
    exact EffectTurn.completes_hosting ih
  | kleisli k => exact EffectTurn.completes_launch _ k.program _
  | compile p => exact EffectTurn.completes_launch _ p _
  | map e f ih =>
    simp only [Effect.start]
    refine EffectTurn.completes_andThen (ih sc) (fun _ _ _ => rfl) ?_
    rintro (i | x) sc₁
    · exact EffectTurn.completes_ended (.error i) sc₁
    · exact EffectTurn.completes_hosting fun y sc₁ => EffectTurn.completes_ended (.ok y) sc₁
  | andThen e k ih ih_next =>
    simp only [Effect.start]
    refine EffectTurn.completes_andThen (ih sc) (fun _ _ _ => rfl) ?_
    rintro (i | x) sc₁
    · exact EffectTurn.completes_ended (.error i) sc₁
    · exact ih_next x sc₁
  | orElse e k ih ih_next =>
    simp only [Effect.start]
    refine EffectTurn.completes_andThen (ih sc) (fun _ _ _ => rfl) ?_
    rintro (i | x) sc₁
    · exact ih_next i sc₁
    · exact EffectTurn.completes_ended (.ok x) sc₁

/-- With some bound an effect comes to an end, and leaves a scene, exactly if its account says
so. -/
theorem Effect.run_iff_account {e : Effect B P a α} {sc sc' : Scene B} {ending : Ending α}
    (known : ending ≠ .exhausted) :
    (∃ bound, e.run ⟨bodies, rt, bound⟩ handle sc = (ending, sc')) ↔
      ∃ ops exit, exit.ending = ending ∧ e.account bodies rt handle sc ops exit sc' := by
  constructor
  · rintro ⟨bound, run⟩
    have shows : Ending.Shows _ (e.run ⟨bodies, rt, bound⟩ handle sc) := e.run_shows sc
    rw [run] at shows
    cases ending with
    | outcome o =>
      obtain ⟨ops, tells⟩ := shows
      exact ⟨ops, .gives o.toExcept, congrArg Ending.outcome (Outcome.ofExcept_toExcept o), tells⟩
    | panicked panic =>
      obtain ⟨ops, tells⟩ := shows
      exact ⟨ops, .breaks panic, rfl, tells⟩
    | exhausted => exact absurd rfl known
  · rintro ⟨ops, exit, rfl, tells⟩
    obtain ⟨enough, comes⟩ := e.start_completes sc ops exit sc' tells
    obtain ⟨k, le, last⟩ := comes enough (Nat.le_refl _)
    have isOver : (Turn.nth (EffectRun.turn ⟨bodies, rt, enough⟩ handle)
        (e.start ⟨bodies, rt, enough⟩ handle sc) k).1.ending?.isSome = true := by
      rw [last, exit.ending?_turn]
      rfl
    refine ⟨enough, (Turn.finish_eq_nth _ enough).trans ?_⟩
    rw [Turn.nth_of_over le isOver, last, exit.ending?_turn]
    rfl

end Completeness

/-! ## An account says one thing -/

namespace Account

section Property

variable {Q : {α : Type} → Account B P α → Prop}
  (ended : ∀ {α : Type} (e : Exit α), Q (atOnce e : Account B P α))

include ended

theorem onward_of {next : Except Interrupted α → Account B P β} (rest : ∀ r, Q (next r))
    (e : Exit α) : Q (onward next e) := by
  cases e with
  | gives r => exact rest r
  | breaks panic => exact ended _

theorem onValue_of {next : α → Account B P β} (rest : ∀ x, Q (next x))
    (r : Except Interrupted α) : Q (onValue next r) := by
  cases r with
  | ok x => exact rest x
  | error i => exact ended _

theorem onError_of {next : Interrupted → Account B P α} (rest : ∀ i, Q (next i))
    (r : Except Interrupted α) : Q (onError next r) := by
  cases r with
  | ok x => exact ended _
  | error i => exact rest i

end Property

/-- The account of an effect has every property that is kept when accounts are put together, if the
accounts of programs that are run in a fork have it. -/
theorem of_parts {Q : {α : Type} → Account B P α → Prop}
    (ended : ∀ {α : Type} (e : Exit α), Q (atOnce e : Account B P α))
    (sequence : ∀ {α β : Type} {first : Account B P α}
      {next : Except Interrupted α → Account B P β},
        Q first → (∀ r, Q (next r)) → Q (first.andThen next))
    (host : ∀ {α σ : Type} {code : Host B.World σ} {next : σ → Account B P α},
      (∀ x, Q (next x)) → Q (hosting code next))
    {bodies : Bodies B P} {rt : Runtime} {handle : B.Handle a}
    (program : ∀ {α : Type} (p : Program B P a α) (F : Fibers → Fiber), Q fun sc =>
      p.reporting bodies rt (sc.fibers.fork (F sc.fibers)).1 handle
        { sc with fibers := (sc.fibers.fork (F sc.fibers)).2 })
    (e : Effect B P a α) : Q (e.account bodies rt handle) := by
  induction e with
  | pure x => exact ended _
  | build code k ih => exact host ih
  | kleisli k => exact program k.program fun _ => k.fiber
  | compile p => exact program p fun fs => fs.fresh.1
  | map e f ih =>
    exact sequence ih (onValue_of ended fun x => host fun y => ended _)
  | andThen e k ih ih_next => exact sequence ih (onValue_of ended ih_next)
  | orElse e k ih ih_next => exact sequence ih (onError_of ended ih_next)

/-- From every scene an account says one thing at most. -/
def Unique (account : Account B P α) : Prop :=
  ∀ ⦃sc ops ops' e e' sc₁ sc₂⦄, account sc ops e sc₁ → account sc ops' e' sc₂ →
    ops = ops' ∧ e = e' ∧ sc₁ = sc₂

theorem unique_atOnce (e : Exit α) : Unique (atOnce e : Account B P α) := by
  rintro sc _ _ _ _ _ _ ⟨rfl, rfl, rfl⟩ ⟨rfl, rfl, rfl⟩
  exact ⟨rfl, rfl, rfl⟩

theorem unique_andThen {first : Account B P α} {next : Except Interrupted α → Account B P β}
    (unique : first.Unique) (rest : ∀ r, (next r).Unique) : (first.andThen next).Unique := by
  rintro sc _ _ e e' sc₁ sc₂ ⟨ops₁, e₁, sc₃, ops₂, tells, rfl, later⟩
    ⟨ops₁', e₁', sc₃', ops₂', tells', rfl, later'⟩
  obtain ⟨rfl, rfl, rfl⟩ := unique tells tells'
  obtain ⟨rfl, same⟩ := onward_of (Q := Unique) unique_atOnce rest e₁ later later'
  exact ⟨rfl, same⟩

theorem unique_hosting {code : Host B.World σ} {next : σ → Account B P α}
    (rest : ∀ x, (next x).Unique) : (hosting code next).Unique := by
  intro sc _ _ _ _ _ _ tells tells'
  exact onward_of (Q := Unique) unique_atOnce (onValue_of (Q := Unique) unique_atOnce rest) _ tells
    tells'

end Account

theorem Program.unique_reporting (bodies : Bodies B P) (rt : Runtime) (f : Fiber)
    (handle : B.Handle a) (p : Program B P a α) : (p.reporting bodies rt f handle).Unique := by
  rintro sc _ _ _ _ _ _ ⟨sc₁, ⟨n, ends⟩, rfl⟩ ⟨sc₂, ⟨n', ends'⟩, rfl⟩
  obtain ⟨rfl, rfl, rfl⟩ := ends.unique ends'
  exact ⟨rfl, rfl, rfl⟩

/-- No account of an effect says two things. -/
theorem Effect.account_unique (bodies : Bodies B P) (rt : Runtime) (handle : B.Handle a)
    (e : Effect B P a α) : (e.account bodies rt handle).Unique := by
  refine Account.of_parts (Q := Account.Unique) Account.unique_atOnce Account.unique_andThen
    Account.unique_hosting ?_ e
  intro α p F sc _ _ _ _ _ _ tells tells'
  exact p.unique_reporting bodies rt _ handle tells tells'

/-! ## Accounts of programs -/

namespace Program

variable {bodies : Bodies B P} {rt : Runtime} {f : Fiber} {handle : B.Handle a} {sc sc' : Scene B}
  {ops : List (Executed B P)}

/-- The account of a program says what the program means, with the mask set back. -/
theorem account_iff {p : Program B P a α} {e : Exit α} :
    p.account bodies rt f handle sc ops e sc' ↔
      ∃ sc₁, Means bodies f [] handle p sc ops e sc₁ ∧ sc' = sc₁.setMask f (sc.fibers.mask f) :=
  State.ends_iff

/-- A program that gives a result has set the mask back itself. -/
theorem account_gives_iff {p : Program B P a α} {r : Except Interrupted α} :
    p.account bodies rt f handle sc ops (.gives r) sc' ↔
      Means bodies f [] handle p sc ops (.gives r) sc' := by
  rw [account_iff]
  constructor
  · rintro ⟨sc₁, means, rfl⟩
    rw [Scene.setMask_eq_self (means.mask_eq rfl)]
    exact means
  · intro means
    exact ⟨sc', means, (Scene.setMask_eq_self (means.mask_eq rfl)).symm⟩

/-- What has no value is the end of whatever waits for one. -/
theorem andThen_of_valueless {p : Program B P a α} {next : α → Account B P β} {e : Exit α}
    {e' : Exit β} (tells : p.account bodies rt f handle sc ops e sc')
    (stop : e.valueless = some e') :
    (p.account bodies rt f handle).andThen (.onValue next) sc ops e' sc' := by
  refine ⟨ops, e, sc', [], tells, (List.append_nil _).symm, ?_⟩
  rcases e with (i | x) | panic
  · cases stop
    exact ⟨rfl, rfl, rfl⟩
  · cases stop
  · cases stop
    exact ⟨rfl, rfl, rfl⟩

/-- The account of a sequence is the sequence of the accounts. -/
theorem account_bind (p : Program B P a α) (k : α → Program B P a β) :
    (bind p k).account bodies rt f handle =
      (p.account bodies rt f handle).andThen
        (.onValue fun x => (k x).account bodies rt f handle) := by
  funext sc ops e sc'
  refine propext ⟨fun tells => ?_, ?_⟩
  · obtain ⟨sc₂, means, rfl⟩ := account_iff.mp tells
    cases means with
    | refused operation _ => cases operation
    | @bind _ _ _ _ _ _ _ x ops₁ ops₂ _ _ sc₁ _ first second =>
      refine ⟨ops₁, .gives (.ok x), sc₁, ops₂, account_gives_iff.mpr first, rfl, ?_⟩
      refine account_iff.mpr ⟨sc₂, second, ?_⟩
      rw [first.mask_eq rfl]
    | bind_stop first stop => exact andThen_of_valueless (account_iff.mpr ⟨sc₂, first, rfl⟩) stop
  · rintro ⟨ops₁, e₁, sc₁, ops₂, first, rfl, later⟩
    rcases e₁ with (i | x) | panic
    · obtain ⟨rfl, rfl, rfl⟩ := later
      rw [List.append_nil]
      exact account_gives_iff.mpr (.bind_stop (account_gives_iff.mp first) rfl)
    · have first := account_gives_iff.mp first
      obtain ⟨sc₂, second, rfl⟩ := account_iff.mp later
      refine account_iff.mpr ⟨sc₂, .bind first second, ?_⟩
      rw [first.mask_eq rfl]
    · obtain ⟨rfl, rfl, rfl⟩ := later
      obtain ⟨sc₂, means, rfl⟩ := account_iff.mp first
      rw [List.append_nil]
      exact account_iff.mpr ⟨sc₂, .bind_stop means rfl, rfl⟩

/-- The account of a program that host code decides on is that of the host code, and then that of
the program. -/
theorem account_build (code : Host B.World σ) (k : σ → Program B P a α) :
    (build code k).account bodies rt f handle =
      .hosting code fun x => (k x).account bodies rt f handle := by
  funext sc ops e sc'
  -- host code leaves the mask alone
  have depth : (sc.host code).2.fibers.mask f = sc.fibers.mask f := Scene.mask_of_host rfl f
  refine propext ⟨fun tells => ?_, fun tells => ?_⟩
  · obtain ⟨sc₂, means, rfl⟩ := account_iff.mp tells
    unfold Account.hosting
    cases means with
    | refused operation _ => cases operation
    | build host rest =>
      rw [host] at depth ⊢
      refine account_iff.mpr ⟨sc₂, rest, ?_⟩
      rw [depth]
    | build_broken host =>
      rw [host] at depth ⊢
      exact ⟨rfl, rfl, Scene.setMask_eq_self depth⟩
  · unfold Account.hosting at tells
    cases hosted : sc.host code with
    | mk exit sc₁ =>
      rw [hosted] at tells depth
      cases exit with
      | ok x =>
        obtain ⟨sc₂, rest, rfl⟩ := account_iff.mp tells
        refine account_iff.mpr ⟨sc₂, .build hosted rest, ?_⟩
        rw [depth]
      | error panic =>
        obtain ⟨rfl, rfl, rfl⟩ := tells
        exact account_iff.mpr ⟨_, .build_broken hosted, (Scene.setMask_eq_self depth).symm⟩

/-- The account of a changed value is that of the value, and then that of the host code that changes
it. -/
theorem account_map (p : Program B P a α) (g : α → Host B.World β) :
    (map p g).account bodies rt f handle =
      (p.account bodies rt f handle).andThen
        (.onValue fun x => .hosting (g x) fun y => .atOnce (.gives (.ok y))) := by
  funext sc ops e sc'
  refine propext ⟨fun tells => ?_, ?_⟩
  · obtain ⟨sc₂, means, rfl⟩ := account_iff.mp tells
    cases means with
    | refused operation _ => cases operation
    | @map _ _ _ _ _ _ _ x _ exit _ sc₁ _ first host =>
      have depth : sc₂.fibers.mask f = sc.fibers.mask f :=
        (Scene.mask_of_host host f).trans (first.mask_eq rfl)
      rw [Scene.setMask_eq_self depth]
      refine ⟨ops, .gives (.ok x), sc₁, [], account_gives_iff.mpr first,
        (List.append_nil _).symm, Account.hosting_iff.mpr ?_⟩
      rw [host]
      exact ⟨rfl, rfl, rfl⟩
    | map_stop first stop => exact andThen_of_valueless (account_iff.mpr ⟨sc₂, first, rfl⟩) stop
  · rintro ⟨ops₁, e₁, sc₁, ops₂, first, rfl, later⟩
    rcases e₁ with (i | x) | panic
    · obtain ⟨rfl, rfl, rfl⟩ := later
      rw [List.append_nil]
      exact account_gives_iff.mpr (.map_stop (account_gives_iff.mp first) rfl)
    · have first := account_gives_iff.mp first
      obtain ⟨rfl, rfl, rfl⟩ := Account.hosting_iff.mp later
      have depth : (sc₁.host (g x)).2.fibers.mask f = sc.fibers.mask f :=
        (Scene.mask_of_host rfl f).trans (first.mask_eq rfl)
      rw [List.append_nil]
      exact account_iff.mpr ⟨_, .map first rfl, (Scene.setMask_eq_self depth).symm⟩
    · obtain ⟨rfl, rfl, rfl⟩ := later
      obtain ⟨sc₂, means, rfl⟩ := account_iff.mp first
      rw [List.append_nil]
      exact account_iff.mpr ⟨sc₂, .map_stop means rfl, rfl⟩

end Program

end Cancelable
