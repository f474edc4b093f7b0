import Cancelable.Proofs.Harmless

/-!
# Notifications

A connection keeps the notifications that it is sent, in order, until it is asked for them.  Then it
hands out all that are waiting, and none of them is waiting any more.  Asking may be scripted to
fail, and that is settled before a notification is taken, so none of them is lost.

What has been sent is on record, and what has been handed out is, too: the answers of the
connection.  So both can be compared after any history, in which notifications are sent and asked
for by turns, asking may fail, and other things may be done in between.

Main statements: what an event makes of a connection (`Bench.Step.connectionOf_cases`), and that in
every history what has been handed out and what is waiting are what was sent, each notification once
and in order (`Bench.notifications_handed_out_once`).
-/

namespace Cancelable
namespace Simulation

/-! ## Answers and changes -/

namespace Connection

/-- What an operation on a connection is answered. -/
def answer (s : Connection) : (o : Connection.Op) → Connection.Op.Answer Ref o
  | .backendPid => s.pid
  | .copyApi => s.copies
  | .fastpathApi => s.fastpath
  | .largeObjectApi => s.directory
  | .notifications => s.notifications
  | .escapeIdentifier identifier => Text.Doubled.enclose '"' identifier
  | .escapeLiteral literal => Text.Doubled.enclose '\'' literal
  | .parameterStatus name => parameter? name
  | .prepareThreshold => s.threshold
  | .setPrepareThreshold _ => ()
  | .cancelQuery => ()

/-- A connection after an operation on it that succeeds. -/
def next (s : Connection) : Connection.Op → Connection
  | .notifications => { s with notifications := [] }
  | .setPrepareThreshold threshold => { s with threshold }
  | .backendPid | .copyApi | .fastpathApi | .largeObjectApi | .escapeIdentifier _
  | .escapeLiteral _ | .parameterStatus _ | .prepareThreshold | .cancelQuery => s

/-- A connection after it has been sent a notification. -/
def notified (s : Connection) (channel payload : String) : Connection :=
  { s with notifications := s.notifications ++ [⟨channel, payload, s.pid⟩] }

end Connection

namespace Bench

/-- A connection, as it is on the bench. -/
def connectionOf (b : Bench) (r : Ref .connection) : Connection :=
  b.connections.get r.index

def setConnection (b : Bench) (r : Ref .connection) (s : Connection) : Bench :=
  { b with connections := b.connections.set r.index s }

@[simp] theorem connectionOf_setConnection (b : Bench) (r : Ref .connection) (s : Connection) :
    (b.setConnection r s).connectionOf r = s := by
  simp [connectionOf, setConnection]

theorem connectionOf_notify (b : Bench) (r : Ref .connection) (channel payload : String) :
    (b.notify r channel payload).connectionOf r =
      (b.connectionOf r).notified channel payload :=
  b.connectionOf_setConnection r _

/-- Other connections do not notice. -/
theorem connectionOf_notify_of_ne (b : Bench) {r q : Ref .connection} (ne : q ≠ r)
    (channel payload : String) :
    (b.notify q channel payload).connectionOf r = b.connectionOf r := by
  have other : q.index ≠ r.index := by
    intro eq
    exact ne (by cases q; cases r; exact congrArg Ref.mk eq)
  simp [notify, connectionOf, Cells.get_set, other]

end Bench

namespace Connection

/-- The work of an operation comes to its answer and to its change. -/
theorem run_act (b : Bench) (r : Ref .connection) (o : Connection.Op) :
    ∃ c : Bench, c.connectionOf r = next (b.connectionOf r) o ∧
      (act r o : Work (Connection.Op.Answer Ref o)).run b =
        .ok (answer (b.connectionOf r) o, c) := by
  cases o with
  | notifications =>
    exact ⟨b.setConnection r (next (b.connectionOf r) .notifications), by simp, rfl⟩
  | setPrepareThreshold threshold =>
    exact ⟨b.setConnection r (next (b.connectionOf r) (.setPrepareThreshold threshold)), by simp,
      rfl⟩
  | backendPid | copyApi | fastpathApi | largeObjectApi | escapeIdentifier | escapeLiteral
  | parameterStatus | prepareThreshold | cancelQuery => exact ⟨b, rfl, rfl⟩

end Connection

/-! ## Performing -/

namespace Bench

variable {b c : Bench} {r : Ref .connection} {o : Connection.Op} {e : Event} {events : List Event}

/-- An operation for which no failure is scripted is answered from the connection, and changes it as
is due. -/
theorem perform_connection (free : b.Unscripted r o) :
    ∃ c, b.perform r o = (.ok (Connection.answer (b.connectionOf r) o), c) ∧
      c.connectionOf r = Connection.next (b.connectionOf r) o := by
  obtain ⟨c, changed, ran⟩ := Connection.run_act (b.noted r o) r o
  exact ⟨c, perform_of_run_ok rfl free ran, changed⟩

/-- So it is whenever an operation succeeds. -/
theorem of_perform_connection {x : Connection.Op.Answer Ref o}
    (performed : b.perform r o = (.ok x, c)) :
    x = Connection.answer (b.connectionOf r) o ∧
      c.connectionOf r = Connection.next (b.connectionOf r) o := by
  obtain ⟨-, free, -⟩ := perform_eq_ok_iff.mp performed
  obtain ⟨d, answered, changed⟩ := perform_connection free
  cases performed.symm.trans answered
  exact ⟨rfl, changed⟩

/-! ## Events -/

/-- An event is an operation on a connection that succeeds, or it notifies the connection, or it is
neither and leaves the connection as it is. -/
theorem Step.connectionOf_cases (has : b.Has r) (step : Step b e c) :
    (∃ (o : Connection.Op) (x : Connection.Op.Answer Ref o), e = .performed r o (.ok x) ∧
      x = Connection.answer (b.connectionOf r) o ∧
        c.connectionOf r = Connection.next (b.connectionOf r) o) ∨
    (∃ channel payload, e = .notified r channel payload ∧
      c.connectionOf r = (b.connectionOf r).notified channel payload) ∨
    (∀ (o : Connection.Op) (x : Connection.Op.Answer Ref o), e ≠ .performed r o (.ok x)) ∧
      (∀ channel payload, e ≠ .notified r channel payload) ∧
        c.connectionOf r = b.connectionOf r := by
  -- notifying is no operation, and it may change a connection that no operation is about
  by_cases told : ∃ q channel payload, e = .notified q channel payload
  · obtain ⟨q, channel, payload, rfl⟩ := told
    cases step with
    | notified =>
      by_cases same : q = r
      · subst same
        exact .inr (.inl ⟨channel, payload, rfl, b.connectionOf_notify q channel payload⟩)
      · refine .inr (.inr ⟨nofun, ?_, b.connectionOf_notify_of_ne same channel payload⟩)
        intro channel' payload' eq
        cases eq
        exact same rfl
  · have quiet : ∀ q channel payload, e ≠ .notified q channel payload := by
      intro q channel payload eq
      exact told ⟨q, channel, payload, eq⟩
    rcases step.own_cases r fun _ => quiet with ⟨o, x, rfl, performed⟩ | ⟨other, apart | same⟩
    · exact .inl ⟨o, x, rfl, of_perform_connection performed⟩
    · exact .inr (.inr ⟨other, quiet r, step.kept.connections.get_eq has apart⟩)
    · exact .inr (.inr ⟨other, quiet r, by simp only [connectionOf, same.connections]⟩)

end Bench

namespace Event

variable {r : Ref .connection} {e : Event}

/-- The notification that a connection is sent, which carries the number of its process. -/
def sends (r : Ref .connection) (pid : Int) : Event → Option Connection.Notification
  | .notified q channel payload => if q = r then some ⟨channel, payload, pid⟩ else none
  | _ => none

/-- The notifications that a connection hands out. -/
def handsOut (r : Ref .connection) : Event → List Connection.Notification
  | .performed (a := .connection) q .notifications (.ok waiting) => if q = r then waiting else []
  | _ => []

/-- An event that does not notify a connection sends it nothing. -/
theorem sends_eq_none {pid : Int}
    (silent : ∀ channel payload, e ≠ .notified r channel payload) : e.sends r pid = none := by
  unfold sends
  split
  · next q channel payload =>
    refine if_neg ?_
    rintro rfl
    exact silent channel payload rfl
  · rfl

/-- An event that is no operation on a connection that succeeds hands out nothing of it. -/
theorem handsOut_eq_nil
    (other : ∀ (o : Connection.Op) (x : Connection.Op.Answer Ref o), e ≠ .performed r o (.ok x)) :
    e.handsOut r = [] := by
  unfold handsOut
  split
  · next q waiting =>
    refine if_neg ?_
    rintro rfl
    exact other .notifications waiting rfl
  · rfl

end Event

/-- The notifications that a connection has been sent, the first one first. -/
def sent (r : Ref .connection) (pid : Int) (events : List Event) : List Connection.Notification :=
  events.filterMap (·.sends r pid)

/-- The notifications that a connection has handed out, each time that it was asked and in this
order. -/
def handedOut (r : Ref .connection) (events : List Event) : List Connection.Notification :=
  events.flatMap (·.handsOut r)

section Recorded

variable {r : Ref .connection} {pid : Int} {events : List Event} {e : Event}

@[simp] theorem sent_snoc :
    sent r pid (events ++ [e]) = sent r pid events ++ (e.sends r pid).toList :=
  filterMap_snoc _ events e

@[simp] theorem handedOut_snoc :
    handedOut r (events ++ [e]) = handedOut r events ++ e.handsOut r := by
  simp [handedOut]

end Recorded

namespace Bench

variable {b c : Bench} {r : Ref .connection} {pid : Int} {e : Event} {events : List Event}

/-! ## The account of a connection -/

/-- What a connection has waiting agrees with what is on record. -/
structure Waits (b : Bench) (r : Ref .connection) (pid : Int) (events : List Event) : Prop where
  process : (b.connectionOf r).pid = pid
  queue : handedOut r events ++ (b.connectionOf r).notifications = sent r pid events

/-- An event that leaves what is waiting, and neither sends nor hands out anything. -/
theorem Waits.idle (waits : b.Waits r pid events)
    (same : (c.connectionOf r).pid = (b.connectionOf r).pid)
    (waiting : (c.connectionOf r).notifications = (b.connectionOf r).notifications)
    (silent : e.sends r pid = none) (nothing : e.handsOut r = []) :
    c.Waits r pid (events ++ [e]) := by
  constructor
  · rw [same, waits.process]
  · simp [silent, nothing, waiting, waits.queue]

/-- What is handed out is what was waiting, and then nothing is. -/
theorem Waits.asked (waits : b.Waits r pid events)
    (after : c.connectionOf r = Connection.next (b.connectionOf r) .notifications) :
    c.Waits r pid (events ++
      [.performed r (.notifications : Connection.Op)
        (.ok (b.connectionOf r).notifications)]) := by
  constructor
  · rw [after, ← waits.process]
    rfl
  · simp [after, Connection.next, Event.handsOut, Event.sends, waits.queue]

/-- What is sent waits behind what has been sent before. -/
theorem Waits.notified {channel payload : String} (waits : b.Waits r pid events)
    (after : c.connectionOf r = (b.connectionOf r).notified channel payload) :
    c.Waits r pid (events ++ [.notified r channel payload]) := by
  constructor
  · rw [after, ← waits.process]
    rfl
  · simp [after, Connection.notified, Event.handsOut, Event.sends, ← waits.queue, waits.process]

/-- Every event keeps the account. -/
theorem Waits.snoc (waits : b.Waits r pid events) (has : b.Has r) (step : Step b e c) :
    c.Waits r pid (events ++ [e]) := by
  rcases step.connectionOf_cases has with
    ⟨o, x, rfl, answered, after⟩ | ⟨channel, payload, rfl, after⟩ | ⟨other, silent, same⟩
  · -- only asking for them takes notifications
    cases o with
    | notifications =>
      subst answered
      exact waits.asked after
    | setPrepareThreshold | backendPid | copyApi | fastpathApi | largeObjectApi | escapeIdentifier
    | escapeLiteral | parameterStatus | prepareThreshold | cancelQuery =>
      exact waits.idle (by rw [after]; rfl) (by rw [after]; rfl) rfl rfl
  · exact waits.notified after
  · exact waits.idle (by rw [same]) (by rw [same]) (Event.sends_eq_none silent)
      (Event.handsOut_eq_nil other)

theorem Waits.steps (waits : b.Waits r pid []) (has : b.Has r) (steps : Steps b events c) :
    c.Waits r pid events :=
  steps.recorded (I := fun events b => b.Waits r pid events) has waits
    fun _ _ _ _ waits has step => waits.snoc has step

/-- A new connection has nothing waiting. -/
theorem waits_newConnection (b : Bench) (journal : String) (pid : Int) :
    (b.newConnection journal pid).2.Waits (b.newConnection journal pid).1 pid [] := by
  have connection : ∃ s : Connection, s.pid = pid ∧ s.notifications = [] ∧
      (b.newConnection journal pid).2.connectionOf (b.newConnection journal pid).1 = s :=
    ⟨_, rfl, rfl, (Cells.get_add ..).trans (if_pos rfl)⟩
  obtain ⟨s, process, empty, new⟩ := connection
  constructor
  · rw [new, process]
  · simp [new, empty, handedOut, sent]

/-- What holds of a connection after a history. -/
structure HandsOutOnce (b : Bench) (r : Ref .connection) (pid : Int) (events : List Event) :
    Prop where
  queue : handedOut r events ++ (b.connectionOf r).notifications = sent r pid events
  /-- A connection that is asked hands out all that was sent and has not been handed out, and then
  nothing is waiting. -/
  asked : b.Unscripted r (.notifications : Connection.Op) →
    ∃ c, b.perform r (.notifications : Connection.Op) =
        (.ok ((sent r pid events).drop (handedOut r events).length), c) ∧
      (c.connectionOf r).notifications = []
  /-- Asking that is scripted to fail hands out nothing and loses nothing: it is answered the next
  time what it would have been answered this time. -/
  faulted : ∀ failure c,
    b.perform r (.notifications : Connection.Op) = (.error (.fault failure), c) →
      (c.connectionOf r).notifications = (b.connectionOf r).notifications ∧
        handedOut r (events ++
          [.performed r (.notifications : Connection.Op) (.error (.fault failure))]) =
            handedOut r events ∧
        (c.perform r (.notifications : Connection.Op)).1 =
          .ok ((sent r pid events).drop (handedOut r events).length)

/-- Whatever is done with a connection, and with whatever failures: the notifications that it has
handed out, and after them those that are waiting, are those that it has been sent, each once, in
order, and with the number of its process.  Asking for them succeeds unless it is scripted to fail,
and then the notifications are still there. -/
theorem notifications_handed_out_once {start : Bench} {journal : String}
    (history : Steps (start.newConnection journal pid).2 events b) :
    b.HandsOutOnce (start.newConnection journal pid).1 pid events := by
  have has : (start.newConnection journal pid).2.Has (start.newConnection journal pid).1 :=
    Nat.lt_succ_self _
  have waits := (waits_newConnection start journal pid).steps has history
  have rest : (b.connectionOf (start.newConnection journal pid).1).notifications =
      (sent (start.newConnection journal pid).1 pid events).drop
        (handedOut (start.newConnection journal pid).1 events).length := by
    rw [← waits.queue, List.drop_left]
  constructor
  · exact waits.queue
  · intro free
    obtain ⟨c, answered, after⟩ := perform_connection free
    rw [← rest]
    exact ⟨c, answered, by rw [after]; rfl⟩
  · intro failure c failed
    -- a failure is found before anything is taken, and is used up by then
    obtain ⟨same, free⟩ := same_of_fault failed
    have still : c.connectionOf (start.newConnection journal pid).1 =
        b.connectionOf (start.newConnection journal pid).1 := by
      simp only [connectionOf, same.connections]
    obtain ⟨d, answered, -⟩ := perform_connection free
    refine ⟨by rw [still], by simp [Event.handsOut], ?_⟩
    rw [answered, still, ← rest]
    rfl

/-- A notification, a failure when it is asked for, and another notification: then both are handed
out. -/
theorem notifications_handed_out_once_after_failure :
    let r := (newConnection {} "main" 7).1
    let told := (newConnection {} "main" 7).2.notify r "jobs" "1"
    let scripted := told.failNext 0 "connection.notifications" (.message ⟨0, []⟩ "lost")
    let failed := (scripted.perform r (.notifications : Connection.Op)).2
    let again := failed.notify r "jobs" "2"
    ∃ c, again.perform r (.notifications : Connection.Op) =
        (.ok [⟨"jobs", "1", 7⟩, ⟨"jobs", "2", 7⟩], c) ∧
      (c.connectionOf r).notifications = [] := by
  intro r told scripted failed again
  have has : (newConnection {} "main" 7).2.Has r := Nat.lt_succ_self 0
  have tells : Steps (newConnection {} "main" 7).2 _ told := .one (.notified has "jobs" "1")
  have scripts : Steps (newConnection {} "main" 7).2 _ scripted :=
    tells.snoc (.scripted (by decide) _ _)
  have fails := scripts.snoc (.performed (scripts.has has) (.notifications : Connection.Op))
  have tellsAgain : Steps (newConnection {} "main" 7).2 _ again :=
    fails.snoc (.notified (fails.has has) "jobs" "2")
  exact (notifications_handed_out_once tellsAgain).asked rfl

end Bench
end Simulation
end Cancelable
