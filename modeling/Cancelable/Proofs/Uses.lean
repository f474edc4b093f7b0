import Cancelable.Simulation.Journal
import Cancelable.Simulation.Probe

/-!
# Uses of probes and journals

What is done with probes and journals is a list of three kinds of uses: a failure is scripted, an
operation begins, or a journal is written to or cleared by itself.  From this list it can be told,
without looking at the probes, for which operations they are armed, and what is in the journals.

Main statements: what the latest use makes of an armed probe (`armed_snoc_iff`), that uses which
concern other operations do not matter to it (`armed_filter_iff`), and how a journal grows
(`entries_replayed_append`).
-/

namespace Cancelable
namespace Simulation

/-! ## Uses -/

/-- What is done with probes and journals. -/
inductive Use where
  /-- A probe is told to make the next operation of a name fail. -/
  | scripted (probe : Nat) (op : String) (failure : Failure)
  /-- An operation begins at a probe that writes to a journal: it fails, or it is recorded. -/
  | begun (probe : Nat) (journal op detail : String) (failure? : Option Failure)
  /-- A journal is written to or cleared by itself. -/
  | edited (journal : String) (f : Journal → Journal)

namespace Use

/-- The failure that a probe is armed with for the operations of a name, if there is one, where it
was `armed` with one before. -/
def armedAfter (probe : Nat) (op : String) (armed : Option Failure) : Use → Option Failure
  | scripted probe' op' failure => if probe' = probe ∧ op' = op then some failure else armed
  | begun probe' _ op' _ _ => if probe' = probe ∧ op' = op then none else armed
  | edited .. => armed

/-- A journal, where it was `j` before. -/
def journalAfter (name : String) (j : Journal) : Use → Journal
  | scripted .. | begun _ _ _ _ (some _) => j
  | begun _ journal op detail none => if journal = name then j.record op detail else j
  | edited journal f => if journal = name then f j else j

/-- A use that has to do with the operations of a name at a probe. -/
def concerns (probe : Nat) (op : String) : Use → Bool
  | scripted probe' op' _ | begun probe' _ op' _ _ => probe' = probe ∧ op' = op
  | edited .. => false

/-- What an operation that begins adds to a journal. -/
def recorded? (name : String) : Use → Option Entry
  | begun _ journal op detail none => if journal = name then some ⟨op, detail⟩ else none
  | _ => none

/-- What does not concern the operations of a name leaves a probe armed for them as it was. -/
theorem armedAfter_of_not_concerns {probe : Nat} {op : String} {u : Use}
    (other : u.concerns probe op = false) (armed : Option Failure) :
    u.armedAfter probe op armed = armed := by
  cases u with
  | scripted | begun => exact if_neg (of_decide_eq_false other)
  | edited => rfl

/-- What does is that a failure is scripted for them, or that one of them begins. -/
theorem armedAfter_of_concerns {probe : Nat} {op : String} {u : Use}
    (own : u.concerns probe op = true) (armed : Option Failure) {failure : Failure} :
    u.armedAfter probe op armed = some failure ↔ u = scripted probe op failure := by
  cases u with
  | scripted =>
    obtain ⟨rfl, rfl⟩ := of_decide_eq_true own
    simp [armedAfter]
  | begun =>
    obtain ⟨rfl, rfl⟩ := of_decide_eq_true own
    simp [armedAfter]
  | edited => cases own

/-- A journal that is not written to or cleared by itself grows by what begins and is recorded. -/
theorem entries_journalAfter {name : String} {u : Use} (unedited : ∀ f, u ≠ edited name f)
    (j : Journal) :
    (u.journalAfter name j).entries = j.entries ++ (u.recorded? name).toList := by
  cases u with
  | scripted => simp [journalAfter, recorded?]
  | begun probe journal op detail failure? =>
    cases failure? with
    | some failure => simp [journalAfter, recorded?]
    | none =>
      by_cases mine : journal = name
      · simp [journalAfter, recorded?, mine]
      · simp [journalAfter, recorded?, mine]
  | edited journal f =>
    have other : journal ≠ name := by
      rintro rfl
      exact unedited f rfl
    simp [journalAfter, recorded?, other]

end Use

/-! ## Armed probes -/

/-- A failure has been scripted for the operations of a name at a probe, and since then none of them
has begun and no other failure has been scripted for them. -/
def Armed (probe : Nat) (op : String) (failure : Failure) (uses : List Use) : Prop :=
  ∃ before after, uses = before ++ .scripted probe op failure :: after ∧
    ∀ u ∈ after, u.concerns probe op = false

section Armed

variable {probe : Nat} {op : String} {failure : Failure} {uses : List Use} {u : Use}

/-- A place in a list that has grown at its end is that end, or it was there before. -/
theorem last_or_earlier {α : Type} {xs before after : List α} {x y : α}
    (eq : xs ++ [x] = before ++ y :: after) :
    (after = [] ∧ xs = before ∧ x = y) ∨
      ∃ rest, after = rest ++ [x] ∧ xs = before ++ y :: rest := by
  rcases List.eq_nil_or_concat after with rfl | ⟨rest, last, rfl⟩
  · exact .inl ⟨rfl, List.append_singleton_inj.mp eq⟩
  · rw [List.concat_eq_append, ← List.cons_append, ← List.append_assoc] at eq
    obtain ⟨rfl, rfl⟩ := List.append_singleton_inj.mp eq
    exact .inr ⟨rest, List.concat_eq_append, rfl⟩

theorem not_armed_nil : ¬ Armed probe op failure [] := by
  rintro ⟨before, after, eq, -⟩
  simp at eq

/-- The latest use decides, if it has to do with the operations of the name. -/
theorem armed_snoc_iff :
    Armed probe op failure (uses ++ [u]) ↔
      u = .scripted probe op failure ∨
        u.concerns probe op = false ∧ Armed probe op failure uses := by
  constructor
  · rintro ⟨before, after, eq, others⟩
    -- the failure was scripted by the latest use, or that use came after it
    rcases last_or_earlier eq with ⟨-, -, latest⟩ | ⟨rest, rfl, rfl⟩
    · exact .inl latest
    · refine .inr ⟨others u (by simp), before, rest, rfl, ?_⟩
      intro v mem
      exact others v (by simp [mem])
  · rintro (rfl | ⟨other, before, after, rfl, others⟩)
    · exact ⟨uses, [], rfl, nofun⟩
    · refine ⟨before, after ++ [u], by simp, ?_⟩
      intro v mem
      rcases List.mem_append.mp mem with old | new
      · exact others v old
      · rw [List.mem_singleton.mp new]
        exact other

/-- What is done with other operations or with other probes does not matter. -/
theorem armed_filter_iff :
    Armed probe op failure (uses.filter (·.concerns probe op)) ↔ Armed probe op failure uses := by
  constructor
  · rintro ⟨before, after, eq, others⟩
    obtain ⟨first, rest, rfl, -, filtered⟩ := List.filter_eq_append_iff.mp eq
    obtain ⟨skipped, later, rfl, unconcerned, -, left⟩ := List.filter_eq_cons_iff.mp filtered
    refine ⟨first ++ skipped, later, by simp, ?_⟩
    intro u mem
    cases own : u.concerns probe op with
    | false => rfl
    | true =>
      -- the filter leaves all that is concerned, and that is nothing
      have kept : u ∈ after := by
        rw [← left]
        exact List.mem_filter.mpr ⟨mem, own⟩
      exact own.symm.trans (others u kept)
  · rintro ⟨before, after, rfl, others⟩
    have gone : after.filter (·.concerns probe op) = [] := by
      apply List.filter_eq_nil_iff.mpr
      intro u mem
      simp [others u mem]
    refine ⟨before.filter (·.concerns probe op), [], ?_, nofun⟩
    rw [List.filter_append, List.filter_cons, gone]
    simp [Use.concerns]

end Armed

/-! ## Journals -/

/-- What looking at a journal in each of the four ways shows, if it has these entries. -/
structure Journal.Shows (j : Journal) (shown : List Entry) : Prop where
  entries : j.entries = shown
  ops : j.ops = shown.map Entry.op
  details : ∀ op, j.details op = (shown.filter fun e => e.op = op).map Entry.detail
  count : ∀ op, j.count op = shown.countP fun e => e.op = op

theorem Journal.shows_entries (j : Journal) : j.Shows j.entries where
  entries := rfl
  ops := rfl
  details _ := rfl
  count _ := List.countP_eq_length_filter.symm

/-- The journal of a name after uses, empty before them. -/
def replayed (name : String) (us : List Use) : Journal :=
  us.foldl (fun j u => u.journalAfter name j) {}

/-- As long as a journal is not written to or cleared by itself, it grows by what begins and is
recorded. -/
theorem entries_replayed_append {name : String} {us vs : List Use}
    (unedited : ∀ f, Use.edited name f ∉ vs) :
    (replayed name (us ++ vs)).entries =
      (replayed name us).entries ++ vs.filterMap (·.recorded? name) := by
  induction vs generalizing us with
  | nil => simp
  | cons u vs ih =>
    have rest : ∀ f, Use.edited name f ∉ vs := fun f mem => unedited f (by simp [mem])
    have first : ∀ f, u ≠ .edited name f := by
      rintro f rfl
      exact unedited f (by simp)
    have grown : (replayed name (us ++ [u])).entries =
        (replayed name us).entries ++ (u.recorded? name).toList := by
      rw [replayed, List.foldl_append]
      exact Use.entries_journalAfter first _
    rw [List.append_cons, ih rest, grown, List.append_assoc, List.filterMap_cons]
    cases u.recorded? name with
    | none => rfl
    | some entry => rfl

end Simulation
end Cancelable
