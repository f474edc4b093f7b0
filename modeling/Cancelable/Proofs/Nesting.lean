import Cancelable.Outcome

/-!
# Nested failures

A failure is an error with any number of layers around it.  A layer encloses what is inside it as it
is, or as the failure of an interrupted program.  The error at the core is a message, an error of
the surrounding system, or a cancellation.

The two ways to read a failure treat the layers differently.  The message goes through all of them
and notes each interruption.  The source is what the outermost interruption encloses: it skips the
layers outside of that one and keeps those inside.

Main statements: every failure is an error with layers around it (`Failure.exists_built`), and what
is read off it layer by layer, and off its sources (`Failure.nesting_read_back`).
-/

namespace Cancelable
namespace Failure

/-! ## Layers -/

/-- A layer around an error. -/
inductive Layer where
  /-- What is inside is enclosed as it is. -/
  | wrapped (label : Label)
  /-- What is inside is enclosed as the failure of an interrupted program. -/
  | interruption (label : Label)
  deriving DecidableEq, Repr

/-- The error inside all layers. -/
inductive Core where
  | message (label : Label) (text : String)
  | system (label : Label) (kind : SystemError) (text : String)
  | cancellation (label : Label)
  deriving DecidableEq, Repr

namespace Layer

def around : Layer → Failure → Failure
  | wrapped label, f => .wrapped label f
  | interruption label, f => .interruption label f

def isInterruption : Layer → Bool
  | wrapped _ => false
  | interruption _ => true

end Layer

namespace Core

def alone : Core → Failure
  | message label text => .message label text
  | system label kind text => .system label kind text
  | cancellation label => .cancellation label

/-- The text of the error: its own, or that of a cancellation. -/
def text : Core → String
  | message _ text | system _ _ text => text
  | cancellation _ => "program canceled"

end Core

/-- The error with layers around it, the outermost layer first. -/
def built (layers : List Layer) (core : Core) : Failure :=
  layers.foldr Layer.around core.alone

/-- How many of the layers are interruptions. -/
def interruptions (layers : List Layer) : Nat :=
  layers.countP Layer.isInterruption

/-- The note that an interruption makes in the message. -/
def note : String := "program failed: "

variable {layers outer inner : List Layer} {core : Core} {label : Label}

@[simp] theorem interruptions_wrapped :
    interruptions (.wrapped label :: layers) = interruptions layers :=
  List.countP_cons_of_neg nofun

@[simp] theorem interruptions_interruption :
    interruptions (.interruption label :: layers) = interruptions layers + 1 :=
  List.countP_cons_of_pos rfl

theorem built_cons (layer : Layer) (layers : List Layer) (core : Core) :
    built (layer :: layers) core = layer.around (built layers core) := rfl

/-- Every failure is an error with layers around it. -/
theorem exists_built (f : Failure) : ∃ layers core, f = built layers core := by
  induction f with
  | message label text => exact ⟨[], .message label text, rfl⟩
  | system label kind text => exact ⟨[], .system label kind text, rfl⟩
  | cancellation label => exact ⟨[], .cancellation label, rfl⟩
  | wrapped label _ ih =>
    obtain ⟨layers, core, rfl⟩ := ih
    exact ⟨.wrapped label :: layers, core, rfl⟩
  | interruption label _ ih =>
    obtain ⟨layers, core, rfl⟩ := ih
    exact ⟨.interruption label :: layers, core, rfl⟩

/-! ## Messages -/

/-- The message notes each interruption, and nothing else. -/
theorem text_built (layers : List Layer) (core : Core) :
    (built layers core).text =
      String.join (List.replicate (interruptions layers) note) ++ core.text := by
  induction layers with
  | nil =>
    rw [interruptions, List.countP_nil, List.replicate_zero, String.join_nil, String.empty_append]
    cases core <;> rfl
  | cons layer layers ih =>
    cases layer with
    | wrapped label =>
      rw [interruptions_wrapped, ← ih]
      rfl
    | interruption label =>
      rw [interruptions_interruption]
      calc (built (.interruption label :: layers) core).text
          = note ++ (built layers core).text := rfl
        _ = note ++ (String.join (List.replicate (interruptions layers) note) ++ core.text) := by
          rw [ih]
        _ = String.join (List.replicate (interruptions layers + 1) note) ++ core.text := by
          rw [List.replicate_succ, String.join_cons, String.append_assoc]

/-- The message of a failure has one note more than that of its source. -/
theorem text_of_source? {f g : Failure} (source : f.source? = some g) :
    f.text = note ++ g.text := by
  induction f with
  | message | system | cancellation => cases source
  | wrapped _ inner ih => exact ih source
  | interruption _ inner =>
    cases source
    rfl

/-! ## Sources of sources -/

/-- What is reached by going from a failure to its source a number of times, if it can be gone on so
often. -/
def nthSource? (f : Failure) : Nat → Option Failure
  | 0 => some f
  | n + 1 => (f.nthSource? n).bind source?

/-- It comes to the same to begin with the source. -/
theorem nthSource?_succ (f : Failure) (n : Nat) :
    f.nthSource? (n + 1) = f.source?.bind (·.nthSource? n) := by
  induction n with
  | zero => cases source : f.source? <;> simp [nthSource?, source]
  | succ n ih =>
    calc f.nthSource? (n + 2)
        = (f.nthSource? (n + 1)).bind source? := rfl
      _ = (f.source?.bind (·.nthSource? n)).bind source? := by rw [ih]
      _ = f.source?.bind fun g => (g.nthSource? n).bind source? := Option.bind_assoc ..

/-- A layer that encloses a failure as it is has the sources of that failure. -/
theorem nthSource?_wrapped (f : Failure) (n : Nat) :
    (wrapped label f).nthSource? (n + 1) = f.nthSource? (n + 1) := by
  rw [nthSource?_succ, nthSource?_succ]
  rfl

theorem nthSource?_interruption (f : Failure) (n : Nat) :
    (interruption label f).nthSource? (n + 1) = f.nthSource? n := by
  rw [nthSource?_succ]
  rfl

/-- Behind each interruption is what it encloses. -/
theorem nthSource?_built (outer : List Layer) (label : Label) (inner : List Layer) (core : Core) :
    (built (outer ++ .interruption label :: inner) core).nthSource? (interruptions outer + 1) =
      some (built inner core) := by
  induction outer with
  | nil => rfl
  | cons layer outer ih =>
    cases layer with
    | wrapped outermost =>
      rw [List.cons_append, built_cons, Layer.around, interruptions_wrapped, nthSource?_wrapped, ih]
    | interruption outermost =>
      rw [List.cons_append, built_cons, Layer.around, interruptions_interruption,
        nthSource?_interruption, ih]

theorem source?_alone (core : Core) : core.alone.source? = none := by
  cases core <;> rfl

/-- It can be gone on as often as there are interruptions. -/
theorem nthSource?_built_eq_none_iff (layers : List Layer) (core : Core) (n : Nat) :
    (built layers core).nthSource? n = none ↔ interruptions layers < n := by
  induction layers generalizing n with
  | nil =>
    cases n with
    | zero => simp [nthSource?]
    | succ n => simp [nthSource?_succ, built, source?_alone, interruptions]
  | cons layer layers ih =>
    cases n with
    | zero => simp [nthSource?]
    | succ n =>
      cases layer with
      | wrapped label =>
        rw [built_cons, Layer.around, nthSource?_wrapped, ih, interruptions_wrapped]
      | interruption label =>
        rw [built_cons, Layer.around, nthSource?_interruption, ih, interruptions_interruption,
          Nat.add_lt_add_iff_right]

/-- The sources of a failure are what is reached so, in order. -/
theorem getElem?_sources (f : Failure) (n : Nat) : f.sources[n]? = f.nthSource? (n + 1) := by
  induction n generalizing f with
  | zero =>
    rw [sources_eq, nthSource?_succ]
    cases f.source? <;> rfl
  | succ n ih =>
    rw [sources_eq, nthSource?_succ]
    cases f.source? with
    | none => rfl
    | some g => exact ih g

/-! ## Both readings -/

/-- A failure that encloses an interruption is read as the interruption is. -/
theorem read_of_interrupted? {f : Failure} {why : Interrupted}
    (captured : f.interrupted? = some why) : f.text = why.text ∧ f.sources = why.sources := by
  cases f with
  | message | system | wrapped => cases captured
  | interruption | cancellation =>
    cases captured
    exact ⟨rfl, rfl⟩

/-- What is read off an error with layers around it. -/
structure ReadBack (layers : List Layer) (core : Core) : Prop where
  /-- The message is the text of the error behind one note for each interruption. -/
  text : (built layers core).text =
    String.join (List.replicate (interruptions layers) note) ++ core.text
  /-- The source reached in as many steps as there are interruptions up to one of them is the
  failure that this one encloses. -/
  step : ∀ outer label inner, layers = outer ++ .interruption label :: inner →
    (built layers core).nthSource? (interruptions outer + 1) = some (built inner core)
  /-- There are no more steps than interruptions. -/
  ends : ∀ n, (built layers core).nthSource? n = none ↔ interruptions layers < n
  /-- Each step takes one note off the message. -/
  shorter : ∀ n f g, (built layers core).nthSource? n = some f →
    (built layers core).nthSource? (n + 1) = some g → f.text = note ++ g.text
  /-- The sources are listed in this order. -/
  listed : ∀ n, (built layers core).sources[n]? = (built layers core).nthSource? (n + 1)
  /-- An interruption that is enclosed at the outside is read in the same way. -/
  captured : ∀ why, (built layers core).interrupted? = some why →
    (built layers core).text = why.text ∧ (built layers core).sources = why.sources

/-- However many layers there are around an error, and in whatever order: the message and the
sources tell how many of them are interruptions and what each of these encloses. -/
theorem nesting_read_back (layers : List Layer) (core : Core) : ReadBack layers core where
  text := text_built layers core
  step := by
    rintro outer label inner rfl
    exact nthSource?_built outer label inner core
  ends := nthSource?_built_eq_none_iff layers core
  shorter := by
    intro n f g reached next
    have source : f.source? = some g := by
      rw [nthSource?, reached] at next
      exact next
    exact text_of_source? source
  listed := getElem?_sources _
  captured _ := read_of_interrupted?

/-- Two interruptions, each of them wrapped, around a message. -/
example :
    let f := built
      [.wrapped ⟨4, []⟩, .interruption ⟨3, []⟩, .wrapped ⟨2, []⟩, .interruption ⟨1, []⟩]
      (.message ⟨0, []⟩ "disk full")
    f.text = "program failed: program failed: disk full" ∧
      f.sources.map text = ["program failed: disk full", "disk full"] := by
  decide +kernel

end Failure
end Cancelable
