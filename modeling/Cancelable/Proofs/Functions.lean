import Cancelable.Proofs.Sharing

/-!
# Functions by name and by identifier

A channel keeps the identifier that each name was last registered with.  A function is called by its
name, which is looked up, or by an identifier, which has to be that of some name.  Names can be
registered again, and share an identifier; so an identifier is known as long as a name has it, and
not any more when all its names have been registered with others.

What has been registered is on record.  So the answers of a channel can be told from its history,
without looking at the names that it keeps.

Main statements: an operation is answered from the names that a channel keeps
(`Bench.perform_fastpath`), what an event makes of a channel (`Bench.Step.fastpathOf_cases`), and
that in every history calls by name and by identifier agree (`Bench.calls_agree`).
-/

namespace Cancelable
namespace Simulation

/-- The values of a table are those of its entries. -/
theorem values_eq_map_toList {α β : Type} {cmp : α → α → Ordering} [Std.TransCmp cmp]
    (t : Std.ExtTreeMap α β cmp) : t.values = t.toList.map Prod.snd := by
  obtain ⟨t⟩ := t
  induction t using Std.ExtDTreeMap.inductionOn with
  | mk m =>
    show m.inner.values = (Std.DTreeMap.Internal.Impl.Const.toList m.inner).map Prod.snd
    rw [Std.DTreeMap.Internal.Impl.values_eq_map_snd,
      Std.DTreeMap.Internal.Impl.Const.toList_eq_toListModel_map, List.map_map]
    rfl

/-! ## Work that only looks -/

namespace Work

variable {α β : Type} {b : Bench}

/-- Work that leaves the bench as it is, followed by more of it. -/
theorem run_bind_of_map {w : Work α} {k : α → Work β} {x : Except Stop α}
    {y : α → Except Stop β} (first : w.run b = x.map fun v => (v, b))
    (rest : ∀ v, (k v).run b = (y v).map fun u => (u, b)) :
    (w >>= k).run b = (x >>= y).map fun u => (u, b) := by
  rw [StateT.run_bind, first]
  cases x with
  | error stop => rfl
  | ok v => exact rest v

theorem run_lift (x : Except Stop α) : (liftM x : Work α).run b = x.map fun v => (v, b) := by
  cases x with
  | error stop => rfl
  | ok v => rfl

theorem run_require (condition : Bool) (why : Rejection) :
    (require condition why : Work Unit).run b =
      (require condition why : Except Stop Unit).map fun v => (v, b) := by
  cases condition with
  | false => rfl
  | true => rfl

end Work

/-! ## Answers and changes -/

namespace Fastpath

/-- The identifier that a name has. -/
def find (s : Fastpath) (name : String) : Except Stop Int :=
  match s.functions[name]? with
  | some oid => .ok oid
  | none => .error (.rejected (.unknownName name))

/-- What an operation on a channel is answered. -/
def answer (s : Fastpath) : (o : Fastpath.Op) → Except Stop (Fastpath.Op.Answer Ref o)
  | .addFunction _ _ => .ok ()
  | .functionId name => s.find name
  | .call fnid args => do
    Work.require (s.isRegistered fnid) (.unknownFunction fnid)
    return join args
  | .getInteger name args => do
    let _ ← s.find name
    let total ← sumFrom 0 args
    Work.require (Width.int32.holds total) .integerOutOfRange
    return total
  | .getLong name args => do
    let _ ← s.find name
    sumFrom 0 args
  | .getOid name args => do
    let _ ← s.find name
    sumFrom 0 args
  | .getData name args => do
    let _ ← s.find name
    return join args

/-- A channel after an operation on it. -/
def next (s : Fastpath) : Fastpath.Op → Fastpath
  | .addFunction name oid => { s with functions := s.functions.insert name oid }
  | .functionId _ | .call _ _ | .getInteger _ _ | .getLong _ _ | .getOid _ _ | .getData _ _ => s

@[simp] theorem probe_next (s : Fastpath) (o : Fastpath.Op) : (next s o).probe = s.probe := by
  cases o <;> rfl

/-- An identifier is known if some name has it. -/
theorem isRegistered_iff {s : Fastpath} {fnid : Int} :
    s.isRegistered fnid = true ↔ ∃ name : String, s.functions[name]? = some fnid := by
  simp [isRegistered, values_eq_map_toList, Std.ExtTreeMap.mem_toList_iff_getElem?_eq_some]

end Fastpath

namespace Bench

/-- A channel, as it is on the bench. -/
def fastpathOf (b : Bench) (r : Ref .fastpath) : Fastpath :=
  b.fastpaths.get r.index

/-- The bench after an operation on a channel. -/
def channelAfter (b : Bench) (r : Ref .fastpath) : Fastpath.Op → Bench
  | .addFunction name oid =>
    { b with
      fastpaths :=
        b.fastpaths.set r.index (Fastpath.next (b.fastpathOf r) (.addFunction name oid)) }
  | .functionId _ | .call _ _ | .getInteger _ _ | .getLong _ _ | .getOid _ _ | .getData _ _ => b

theorem fastpathOf_channelAfter (b : Bench) (r : Ref .fastpath) (o : Fastpath.Op) :
    (b.channelAfter r o).fastpathOf r = Fastpath.next (b.fastpathOf r) o := by
  cases o with
  | addFunction => exact Cells.get_set_self _ _ _
  | functionId | call | getInteger | getLong | getOid | getData => rfl

end Bench

namespace Fastpath

open Work (run_bind_of_map run_lift run_require)

theorem run_lookup_eq_find (b : Bench) (r : Ref .fastpath) (name : String) :
    (lookup r name : Work Int).run b = (find (b.fastpathOf r) name).map fun oid => (oid, b) := by
  rw [run_lookup, find, Bench.fastpathOf]
  cases (b.fastpaths.get r.index).functions[name]? with
  | some oid => rfl
  | none => rfl

/-- The work of an operation comes to its answer and, if that is a value, to its change. -/
theorem run_act (b : Bench) (r : Ref .fastpath) (o : Fastpath.Op) :
    (act r o : Work (Fastpath.Op.Answer Ref o)).run b =
      (answer (b.fastpathOf r) o).map fun x => (x, b.channelAfter r o) := by
  -- only registering changes anything; all else looks a name up, or an identifier, and goes on
  cases o with
  | addFunction name oid => rfl
  | functionId name => exact run_lookup_eq_find b r name
  | call fnid args =>
    show (do
      Work.require ((b.fastpathOf r).isRegistered fnid) (.unknownFunction fnid)
      return join args : Work (Option Bytes)).run b = _
    exact run_bind_of_map (run_require _ _) fun _ => rfl
  | getInteger name args =>
    refine run_bind_of_map (run_lookup_eq_find b r name) fun _ => ?_
    refine run_bind_of_map (run_lift _) fun total => ?_
    exact run_bind_of_map (run_require _ _) fun _ => rfl
  | getLong name args | getOid name args =>
    exact run_bind_of_map (run_lookup_eq_find b r name) fun _ => run_lift _
  | getData name args => exact run_bind_of_map (run_lookup_eq_find b r name) fun _ => rfl

/-! ## What a call for data yields -/

/-- The bytes of an argument.  Integers have none. -/
def Arg.content : Fastpath.Arg → List UInt8
  | .int _ | .long _ => []
  | .bytes b => b.toList
  | .text s => s.toUTF8.data.toList

/-- The bytes of all arguments one after another, unless there are none. -/
def result (args : List Fastpath.Arg) : Option Bytes :=
  if args.flatMap Arg.content = [] then none else some (args.flatMap Arg.content).toArray

theorem join_eq_result (args : List Fastpath.Arg) : join args = result args := by
  have data : ∀ arg : Fastpath.Arg, (Arg.data arg).toList = Arg.content arg := by
    intro arg
    cases arg <;> rfl
  have bytes : (args.foldl (fun data arg => data ++ Arg.data arg) #[]).toList =
      args.flatMap Arg.content := by
    rw [← List.foldl_map, Bytes.toList_foldl_append, List.flatMap_map]
    simp [data]
  simp [join, result, ← bytes, Array.toList_eq_nil_iff]

end Fastpath

/-! ## Performing -/

namespace Bench

variable {b c : Bench} {r : Ref .fastpath} {o : Fastpath.Op} {e : Event} {events : List Event}

/-- An operation for which no failure is scripted is answered from the channel, and changes it as is
due, and no scripted failure is used up. -/
theorem perform_fastpath (free : b.Unscripted r o) :
    ∃ c, b.perform r o = (Fastpath.answer (b.fastpathOf r) o, c) ∧
      c.fastpathOf r = Fastpath.next (b.fastpathOf r) o ∧ c.probes = b.probes := by
  have ran := Fastpath.run_act (b.noted r o) r o
  have answer : Fastpath.answer ((b.noted r o).fastpathOf r) o =
      Fastpath.answer (b.fastpathOf r) o := rfl
  rw [answer] at ran
  cases answered : Fastpath.answer (b.fastpathOf r) o with
  | ok x =>
    rw [answered] at ran
    refine ⟨_, perform_of_run_ok rfl free ran, fastpathOf_channelAfter (b.noted r o) r o, ?_⟩
    cases o <;> rfl
  | error stop =>
    rw [answered] at ran
    refine ⟨_, perform_of_run_error rfl free ran, ?_, rfl⟩
    -- registering does not fail, and nothing else changes a channel
    cases o with
    | addFunction => cases answered
    | functionId | call | getInteger | getLong | getOid | getData => rfl

theorem perform_fastpath_fst (free : b.Unscripted r o) :
    (b.perform r o).1 = Fastpath.answer (b.fastpathOf r) o := by
  obtain ⟨c, answered, -⟩ := perform_fastpath free
  rw [answered]

/-- So it is whenever an operation succeeds. -/
theorem of_perform_fastpath {x : Fastpath.Op.Answer Ref o}
    (performed : b.perform r o = (.ok x, c)) :
    Fastpath.answer (b.fastpathOf r) o = .ok x ∧
      c.fastpathOf r = Fastpath.next (b.fastpathOf r) o := by
  obtain ⟨-, free, -⟩ := perform_eq_ok_iff.mp performed
  obtain ⟨d, answered, changed, -⟩ := perform_fastpath free
  have both := performed.symm.trans answered
  rw [Prod.mk.injEq] at both
  obtain ⟨answer, rfl⟩ := both
  exact ⟨answer.symm, changed⟩

/-- An operation on a channel leaves unscripted what was. -/
theorem unscripted_of_same {o' : Fastpath.Op} (free : b.Unscripted r o')
    (same : c.fastpathOf r = Fastpath.next (b.fastpathOf r) o) (probes : c.probes = b.probes) :
    c.Unscripted r o' := by
  have probe : c.probeOf r = b.probeOf r :=
    (congrArg Fastpath.probe same).trans (Fastpath.probe_next _ o)
  rw [Unscripted, probes, probe]
  exact free

/-! ## Events -/

/-- An event is an operation on a channel that succeeds, or it is no such operation and leaves the
channel as it is. -/
theorem Step.fastpathOf_cases (has : b.Has r) (step : Step b e c) :
    (∃ (o : Fastpath.Op) (x : Fastpath.Op.Answer Ref o), e = .performed r o (.ok x) ∧
      c.fastpathOf r = Fastpath.next (b.fastpathOf r) o) ∨
    (∀ (o : Fastpath.Op) (x : Fastpath.Op.Answer Ref o), e ≠ .performed r o (.ok x)) ∧
      c.fastpathOf r = b.fastpathOf r := by
  rcases step.own_cases r nofun with ⟨o, x, rfl, performed⟩ | ⟨other, apart | same⟩
  · exact .inl ⟨o, x, rfl, (of_perform_fastpath performed).2⟩
  · exact .inr ⟨other, step.kept.fastpaths.get_eq has apart⟩
  · exact .inr ⟨other, by simp only [fastpathOf, same.fastpaths]⟩

end Bench

namespace Event

/-- The identifier that a name is registered with, if that succeeds. -/
def registers (r : Ref .fastpath) (name : String) : Event → Option Int
  | .performed (a := .fastpath) q (.addFunction given oid) (.ok _) =>
    if q = r ∧ given = name then some oid else none
  | _ => none

/-- An event that is no operation on a channel that succeeds registers nothing with it. -/
theorem registers_eq_none {r : Ref .fastpath} {e : Event} (name : String)
    (other : ∀ (o : Fastpath.Op) (x : Fastpath.Op.Answer Ref o), e ≠ .performed r o (.ok x)) :
    e.registers r name = none := by
  unfold registers
  split
  · next q given oid x =>
    refine if_neg ?_
    rintro ⟨rfl, -⟩
    exact other (.addFunction given oid) x rfl
  · rfl

end Event

/-- The identifier that a name was registered with last. -/
def registered (r : Ref .fastpath) (name : String) (events : List Event) : Option Int :=
  (events.filterMap (·.registers r name)).getLast?

@[simp] theorem registered_nil (r : Ref .fastpath) (name : String) : registered r name [] = none :=
  rfl

/-- A later registration stands in place of an earlier one. -/
@[simp] theorem registered_snoc {r : Ref .fastpath} {name : String} {events : List Event}
    {e : Event} :
    registered r name (events ++ [e]) = (e.registers r name).or (registered r name events) := by
  rw [registered, filterMap_snoc, List.getLast?_append]
  cases e.registers r name with
  | none => rfl
  | some oid => rfl

namespace Bench

variable {b c : Bench} {r : Ref .fastpath} {e : Event} {events : List Event}

/-! ## The account of a channel -/

/-- The names that a channel keeps are those on record. -/
def Knows (b : Bench) (r : Ref .fastpath) (events : List Event) : Prop :=
  ∀ name : String, (b.fastpathOf r).functions[name]? = registered r name events

/-- Every event keeps the account. -/
theorem Knows.snoc (knows : b.Knows r events) (has : b.Has r) (step : Step b e c) :
    c.Knows r (events ++ [e]) := by
  intro name
  rcases step.fastpathOf_cases has with ⟨o, x, rfl, after⟩ | ⟨other, same⟩
  · rw [after]
    -- only registering changes a name, and only the one that is given
    cases o with
    | addFunction given oid =>
      by_cases same : given = name
      · simp [Fastpath.next, Event.registers, same]
      · simp [Fastpath.next, Event.registers, same, Std.ExtTreeMap.getElem?_insert, knows name]
    | functionId | call | getInteger | getLong | getOid | getData =>
      simp [Fastpath.next, Event.registers, knows name]
  · rw [same, registered_snoc, Event.registers_eq_none name other]
    exact knows name

theorem Knows.steps (knows : b.Knows r []) (has : b.Has r) (steps : Steps b events c) :
    c.Knows r events :=
  steps.recorded (I := fun events b => b.Knows r events) has knows
    fun _ _ _ _ knows has step => knows.snoc has step

/-- An identifier is known if it is the last one of some name. -/
theorem Knows.isRegistered_iff (knows : b.Knows r events) {fnid : Int} :
    (b.fastpathOf r).isRegistered fnid = true ↔
      ∃ name, registered r name events = some fnid := by
  simp only [Fastpath.isRegistered_iff, knows _]

/-- A call by identifier, of a function that is known and of one that is not. -/
theorem Knows.answer_call (knows : b.Knows r events) (fnid : Int) (args : List Fastpath.Arg) :
    ((∃ name, registered r name events = some fnid) →
      Fastpath.answer (b.fastpathOf r) (.call fnid args) = .ok (Fastpath.result args)) ∧
    ((∀ name, registered r name events ≠ some fnid) →
      Fastpath.answer (b.fastpathOf r) (.call fnid args) =
        .error (.rejected (.unknownFunction fnid))) := by
  rw [← not_exists, ← knows.isRegistered_iff, ← Fastpath.join_eq_result]
  constructor
  · intro known
    simp only [Fastpath.answer, known]
    rfl
  · intro unknown
    simp only [Fastpath.answer, unknown]
    rfl

/-- A call for data by name, of a name that has been registered and of one that has not. -/
theorem Knows.answer_getData (knows : b.Knows r events) (name : String)
    (args : List Fastpath.Arg) :
    Fastpath.answer (b.fastpathOf r) (.getData name args) =
      match registered r name events with
      | some _ => .ok (Fastpath.result args)
      | none => .error (.rejected (.unknownName name)) := by
  rw [← Fastpath.join_eq_result, Fastpath.answer, Fastpath.find, knows name]
  cases registered r name events with
  | some oid => rfl
  | none => rfl

/-- What holds of the functions of a channel after a history. -/
structure CallsAgree (b : Bench) (r : Ref .fastpath) (events : List Event) : Prop where
  functionId : ∀ name, b.Unscripted r (.functionId name : Fastpath.Op) →
    (b.perform r (.functionId name : Fastpath.Op)).1 =
      match registered r name events with
      | some oid => .ok oid
      | none => .error (.rejected (.unknownName name))
  known : ∀ fnid args, b.Unscripted r (.call fnid args : Fastpath.Op) →
    (∃ name, registered r name events = some fnid) →
      (b.perform r (.call fnid args : Fastpath.Op)).1 = .ok (Fastpath.result args)
  /-- No name has the identifier, or each that had it has been registered with another. -/
  unknown : ∀ fnid args, b.Unscripted r (.call fnid args : Fastpath.Op) →
    (∀ name, registered r name events ≠ some fnid) →
      (b.perform r (.call fnid args : Fastpath.Op)).1 = .error (.rejected (.unknownFunction fnid))
  getData : ∀ name args, b.Unscripted r (.getData name args : Fastpath.Op) →
    (b.perform r (.getData name args : Fastpath.Op)).1 =
      match registered r name events with
      | some _ => .ok (Fastpath.result args)
      | none => .error (.rejected (.unknownName name))
  /-- To ask for the identifier of a name and call it comes to the same as to call the name. -/
  agree : ∀ name args oid, registered r name events = some oid →
    b.Unscripted r (.functionId name : Fastpath.Op) →
    b.Unscripted r (.call oid args : Fastpath.Op) →
    b.Unscripted r (.getData name args : Fastpath.Op) →
      ∃ c, b.perform r (.functionId name : Fastpath.Op) = (.ok oid, c) ∧
        (c.perform r (.call oid args : Fastpath.Op)).1 =
          (b.perform r (.getData name args : Fastpath.Op)).1

/-- Whatever has been registered with a channel since it had no names, and whatever else has been
done: a name has the identifier that it was registered with last, an identifier is known exactly if
some name has it now, and a function is called with the same result by its name and by the
identifier that its name has, namely the bytes of its arguments in order, unless there are none. -/
theorem calls_agree {start : Bench} (has : start.Has r)
    (unnamed : (start.fastpathOf r).functions = ∅) (history : Steps start events b) :
    b.CallsAgree r events := by
  have begins : start.Knows r [] := by
    intro name
    simp [unnamed]
  have knows := begins.steps has history
  constructor
  · intro name free
    rw [perform_fastpath_fst free, ← knows name]
    rfl
  · intro fnid args free known
    rw [perform_fastpath_fst free]
    exact (knows.answer_call fnid args).1 known
  · intro fnid args free unknown
    rw [perform_fastpath_fst free]
    exact (knows.answer_call fnid args).2 unknown
  · intro name args free
    rw [perform_fastpath_fst free]
    exact knows.answer_getData name args
  · intro name args oid named freeName freeCall freeData
    obtain ⟨c, found, same, probes⟩ := perform_fastpath freeName
    -- looking the name up leaves the channel as it is, so the call finds the same names
    have freeAfter := unscripted_of_same freeCall same probes
    have oidOf : Fastpath.answer (b.fastpathOf r) (.functionId name) = .ok oid := by
      rw [Fastpath.answer, Fastpath.find, knows name, named]
    have data := knows.answer_getData name args
    rw [named] at data
    refine ⟨c, by rw [found, oidOf], ?_⟩
    rw [perform_fastpath_fst freeAfter, same, perform_fastpath_fst freeData]
    exact ((knows.answer_call oid args).1 ⟨name, named⟩).trans data.symm

/-- On the channel of a connection two names share an identifier, and then one of them is registered
with another.  The first identifier is known by the other name; when that is registered anew, too,
it is not known any more. -/
theorem calls_agree_after_sharing :
    let r : Ref .fastpath := ⟨0⟩
    let start := (newConnection {} "main" 1).2
    let add (b : Bench) (name : String) (oid : Int) :=
      (b.perform r (.addFunction name oid : Fastpath.Op)).2
    let shared := add (add start "f" 7) "g" 7
    let moved := add shared "f" 8
    let gone := add moved "g" 9
    let args : List Fastpath.Arg := [.int 1, .bytes #[1], .text "a"]
    (moved.perform r (.call 7 args : Fastpath.Op)).1 = .ok (some #[1, 97]) ∧
      (gone.perform r (.call 7 args : Fastpath.Op)).1 = .error (.rejected (.unknownFunction 7)) ∧
      ∃ c, gone.perform r (.functionId "f" : Fastpath.Op) = (.ok 8, c) ∧
        (c.perform r (.call 8 args : Fastpath.Op)).1 = .ok (some #[1, 97]) := by
  intro r start add shared moved gone args
  have has : start.Has r := Nat.lt_succ_self 0
  -- no failure is ever scripted, and each registration is on record
  have adds {b : Bench} {events : List Event} (name : String) (oid : Int)
      (before : Steps start events b ∧ ∀ o : Fastpath.Op, b.Unscripted r o) :
      Steps start (events ++ [.performed r (.addFunction name oid : Fastpath.Op) (.ok ())])
        (add b name oid) ∧ ∀ o : Fastpath.Op, (add b name oid).Unscripted r o := by
    obtain ⟨steps, free⟩ := before
    obtain ⟨c, performed, same, probes⟩ := perform_fastpath (free (.addFunction name oid))
    have after : add b name oid = c := congrArg Prod.snd performed
    rw [after]
    exact ⟨steps.snoc (.of_perform (steps.has has) performed),
      fun o => unscripted_of_same (free o) same probes⟩
  have fresh : ∀ o : Fastpath.Op, start.Unscripted r o := fun o => by cases o <;> rfl
  obtain ⟨toMoved, freeMoved⟩ := adds "f" 8 (adds "g" 7 (adds "f" 7 ⟨.nil, fresh⟩))
  obtain ⟨toGone, freeGone⟩ := adds "g" 9 ⟨toMoved, freeMoved⟩
  have before := calls_agree has rfl toMoved
  have after := calls_agree has rfl toGone
  refine ⟨?_, ?_, ?_⟩
  · exact before.known 7 args (freeMoved _) ⟨"g", rfl⟩
  · refine after.unknown 7 args (freeGone _) ?_
    intro name
    simp only [registered_snoc, Event.registers]
    by_cases isG : "g" = name
    · simp [isG]
    · by_cases isF : "f" = name
      · simp [isG, isF]
      · simp [isG, isF]
  · obtain ⟨c, found, same⟩ := after.agree "f" args 8 rfl (freeGone _) (freeGone _) (freeGone _)
    exact ⟨c, found, same.trans (after.getData "f" args (freeGone _))⟩

end Bench
end Simulation
end Cancelable
