import Cancelable.Proofs.Origin

/-!
# The objects of a directory

A directory gives each object that it creates a number that it has not given before, even if objects
have been taken out of it in the meantime.  So an identifier stands for one object for good, and the
descriptors of an object are those that were opened for its identifier, and their copies.

The invariant that carries this assigns to every identifier that has been given the place of its
bytes.  The assignment is one to one, it agrees with what the directories have stored, and a
descriptor has the bytes of an object exactly if it is a descriptor of that object.

Main statements: what a directory creates is new (`Bench.Registered.not_created`), who the
descriptors of an object are (`Bench.Registered.opened_step`), and that there is such an assignment
in every history (`Bench.Steps.registered`).
-/

namespace Cancelable
namespace Simulation

/-! ## Identifiers on record -/

namespace Event

variable {d : Ref .directory} {oid : Int} {e : Event}

/-- The identifier that a directory gives to a new object. -/
def creates (d : Ref .directory) : Event → Option Int
  | .performed (a := .directory) q (.create _) (.ok oid) => if q = d then some oid else none
  | _ => none

/-- The identifier of an object that is taken out of a directory. -/
def unlinks (d : Ref .directory) : Event → Option Int
  | .performed (a := .directory) q (.unlink oid) (.ok _) => if q = d then some oid else none
  | _ => none

theorem creates_eq_some :
    e.creates d = some oid ↔
      ∃ mode, e = .performed d (.create mode : Directory.Op) (.ok oid) := by
  constructor
  · intro eq
    unfold creates at eq
    split at eq
    · next q mode x =>
      split at eq
      · next same =>
        cases eq
        cases same
        exact ⟨mode, rfl⟩
      · cases eq
    · cases eq
  · rintro ⟨mode, rfl⟩
    exact if_pos rfl

theorem unlinks_eq_some :
    e.unlinks d = some oid ↔
      e = .performed d (.unlink oid : Directory.Op) (.ok ()) := by
  constructor
  · intro eq
    unfold unlinks at eq
    split at eq
    · next q oid' x =>
      split at eq
      · next same =>
        cases eq
        cases same
        rfl
      · cases eq
    · cases eq
  · rintro rfl
    exact if_pos rfl

end Event

/-- The identifiers that a directory has given, the first one first. -/
def created (d : Ref .directory) (events : List Event) : List Int :=
  events.filterMap (·.creates d)

/-- The identifiers of the objects that have been taken out of a directory. -/
def unlinked (d : Ref .directory) (events : List Event) : List Int :=
  events.filterMap (·.unlinks d)

section Recorded

variable {d : Ref .directory} {oid : Int} {events : List Event} {e : Event}

theorem created_snoc : created d (events ++ [e]) = created d events ++ (e.creates d).toList :=
  filterMap_snoc _ events e

theorem unlinked_snoc : unlinked d (events ++ [e]) = unlinked d events ++ (e.unlinks d).toList :=
  filterMap_snoc _ events e

@[simp] theorem mem_created_snoc :
    oid ∈ created d (events ++ [e]) ↔ oid ∈ created d events ∨ e.creates d = some oid := by
  simp [created_snoc]

@[simp] theorem mem_unlinked_snoc :
    oid ∈ unlinked d (events ++ [e]) ↔ oid ∈ unlinked d events ∨ e.unlinks d = some oid := by
  simp [unlinked_snoc]

end Recorded

/-! ## Descriptors on record -/

/-- An event in which a descriptor is opened, or copied from another one. -/
inductive Event.Yields (r : Ref .largeObject) : Event → Prop where
  | opened (d : Ref .directory) (oid : Int) (mode : Directory.Access) :
    Yields r (.performed d (.openObject oid mode : Directory.Op) (.ok r))
  | copied (q : Ref .largeObject) : Yields r (.performed q (.copy : LargeObject.Op) (.ok r))

/-- The descriptors of an object: those that were opened for its identifier, and their copies. -/
inductive Opened (d : Ref .directory) (oid : Int) (events : List Event) :
    Ref .largeObject → Prop where
  | opened {r : Ref .largeObject} {mode : Directory.Access}
    (mem : Event.performed d (.openObject oid mode : Directory.Op) (.ok r) ∈ events) :
    Opened d oid events r
  | copied {q r : Ref .largeObject} (source : Opened d oid events q)
    (mem : Event.performed q (.copy : LargeObject.Op) (.ok r) ∈ events) : Opened d oid events r

namespace Bench

variable {b c : Bench} {d d₁ : Ref .directory} {oid oid₁ : Int} {r q : Ref .largeObject}
  {events : List Event} {e : Event}

/-- What is opened or copied has not been there before. -/
theorem Step.fresh_of_yields (step : Step b e c) (yields : e.Yields r) : ¬ b.Has r ∧ c.Has r := by
  cases yields with
  | opened d oid mode =>
    obtain ⟨i, -, index, -, -, added⟩ := of_perform_openObject step.performed_eq.2
    rw [Has, Has, given, given, added, index]
    exact ⟨Nat.lt_irrefl _, Nat.lt_succ_self _⟩
  | copied q =>
    obtain ⟨-, -, answered, rfl⟩ := of_perform_eq_ok step.performed_eq.2
    cases answered
    exact ⟨Nat.lt_irrefl _, Nat.lt_succ_self _⟩

theorem Steps.has_of_yields (steps : Steps b events c) (mem : e ∈ events) (yields : e.Yields r) :
    c.Has r := by
  induction steps with
  | nil => cases mem
  | snoc before step ih =>
    rcases List.mem_append.mp mem with earlier | last
    · exact step.has (ih earlier)
    · obtain rfl := List.mem_singleton.mp last
      exact (step.fresh_of_yields yields).2

theorem Steps.has_of_opened (steps : Steps b events c) (opened : Opened d oid events r) :
    c.Has r := by
  cases opened with
  | opened mem => exact steps.has_of_yields mem (.opened _ _ _)
  | copied _ mem => exact steps.has_of_yields mem (.copied _)

end Bench

section Snoc

variable {a b c : Bench} {d : Ref .directory} {oid : Int} {r : Ref .largeObject}
  {events : List Event} {e : Event}

theorem Opened.snoc (opened : Opened d oid events r) : Opened d oid (events ++ [e]) r := by
  induction opened with
  | opened mem => exact .opened (List.mem_append_left _ mem)
  | copied _ mem ih => exact .copied ih (List.mem_append_left _ mem)

/-- What was there before has not been opened last. -/
theorem Opened.of_snoc (before : Bench.Steps a events b) (step : Bench.Step b e c)
    (opened : Opened d oid (events ++ [e]) r) (known : b.Has r) : Opened d oid events r := by
  induction opened with
  | opened mem =>
    rcases List.mem_append.mp mem with earlier | last
    · exact .opened earlier
    · obtain rfl := List.mem_singleton.mp last
      exact absurd known (step.fresh_of_yields (.opened _ _ _)).1
  | copied _ mem ih =>
    rcases List.mem_append.mp mem with earlier | last
    · exact .copied (ih (before.has_of_mem earlier)) earlier
    · obtain rfl := List.mem_singleton.mp last
      exact absurd known (step.fresh_of_yields (.copied _)).1

/-- How a descriptor that was not there before has come to be one of an object. -/
theorem Opened.last (unopened : ∀ e' ∈ events, ¬ e'.Yields r)
    (opened : Opened d oid (events ++ [e]) r) :
    (∃ mode, e = .performed d (.openObject oid mode : Directory.Op) (.ok r)) ∨
      ∃ q, Opened d oid (events ++ [e]) q ∧
        e = .performed q (.copy : LargeObject.Op) (.ok r) := by
  cases opened with
  | opened mem =>
    rcases List.mem_append.mp mem with earlier | last
    · exact absurd (.opened _ _ _) (unopened _ earlier)
    · exact .inl ⟨_, (List.mem_singleton.mp last).symm⟩
  | copied source mem =>
    rcases List.mem_append.mp mem with earlier | last
    · exact absurd (.copied _) (unopened _ earlier)
    · exact .inr ⟨_, source, (List.mem_singleton.mp last).symm⟩

end Snoc

namespace Bench

variable {b c : Bench} {d d₁ : Ref .directory} {oid oid₁ : Int} {r q : Ref .largeObject}
  {events : List Event} {e : Event}

/-! ## What an event makes of a directory -/

/-- An event in which nothing is created in a directory, or taken out of it, leaves its objects. -/
theorem Step.objects_eq (known : b.Has d) (step : Step b e c) (creates : e.creates d = none)
    (unlinks : e.unlinks d = none) : (c.directoryOf d).objects = (b.directoryOf d).objects := by
  rcases step.directoryOf_cases known with same | ⟨o, x, rfl, performed⟩
  · rw [same]
  · cases o with
    | create mode => simp [Event.creates] at creates
    | unlink oid => simp [Event.unlinks] at unlinks
    | openObject oid mode => rw [directoryOf_of_openObject performed]

theorem Step.nextOid_le (known : b.Has d) (step : Step b e c) :
    (b.directoryOf d).nextOid ≤ (c.directoryOf d).nextOid := by
  rcases step.directoryOf_cases known with same | ⟨o, x, -, performed⟩
  · exact Int.le_of_eq (by rw [same])
  · cases o with
    | create mode =>
      obtain ⟨next, -⟩ := of_perform_create performed
      rw [nextOid_of_create performed, ← next]
      omega
    | unlink oid => exact Int.le_of_eq (nextOid_of_unlink performed).symm
    | openObject oid mode => exact Int.le_of_eq (by rw [directoryOf_of_openObject performed])

/-- Nothing is created where a descriptor comes to be. -/
theorem Originates.creates_eq (originates : Originates b c r e) : e.creates d = none := by
  cases originates with
  | placed | copied | opened => rfl

/-! ## Where the bytes of objects are -/

/-- The objects that have been created, and where their bytes are. -/
structure Registered (b : Bench) (events : List Event) (home : Ref .directory → Int → Nat) :
    Prop where
  known : ∀ d oid, oid ∈ created d events → b.Has d
  below : ∀ d oid, oid ∈ created d events → oid < (b.directoryOf d).nextOid
  nodup : ∀ d, (created d events).Nodup
  gone : ∀ d oid, oid ∈ unlinked d events → oid ∈ created d events
  stored : ∀ d oid, oid ∈ created d events → home d oid < b.contents.size
  apart : ∀ d oid d' oid', oid ∈ created d events → oid' ∈ created d' events →
    home d oid = home d' oid' → d = d' ∧ oid = oid'
  entry : ∀ d oid i, b.Has d → ((b.directoryOf d).objects[oid]? = some i ↔
    oid ∈ created d events ∧ oid ∉ unlinked d events ∧ home d oid = i)
  opened : ∀ d oid r, b.Has r → (Opened d oid events r ↔
    oid ∈ created d events ∧ (b.objectOf r).contents = home d oid)

/-- The bytes of what an event creates are the next ones. -/
def homeAfter (b : Bench) (e : Event) (home : Ref .directory → Int → Nat) (d : Ref .directory)
    (oid : Int) : Nat :=
  if e.creates d = some oid then b.contents.size else home d oid

theorem homeAfter_of_creates {home : Ref .directory → Int → Nat}
    (creates : e.creates d = some oid) : homeAfter b e home d oid = b.contents.size :=
  if_pos creates

section Step

variable {home : Ref .directory → Int → Nat} (registered : b.Registered events home)
  (step : Step b e c)

include registered step

/-- What a directory creates has a number that it has not given before. -/
theorem Registered.not_created (creates : e.creates d = some oid) : oid ∉ created d events := by
  intro before
  obtain ⟨mode, rfl⟩ := Event.creates_eq_some.mp creates
  obtain ⟨next, -⟩ := of_perform_create step.performed_eq.2
  have below := registered.below d oid before
  omega

/-- The place of the bytes of an object does not change. -/
theorem Registered.homeAfter_eq (before : oid ∈ created d events) :
    homeAfter b e home d oid = home d oid :=
  if_neg fun creates => registered.not_created step creates before

theorem Registered.homeAfter_lt_size (before : oid ∈ created d events) :
    homeAfter b e home d oid < b.contents.size := by
  rw [registered.homeAfter_eq step before]
  exact registered.stored d oid before

theorem Registered.nodup_step (d : Ref .directory) : (created d (events ++ [e])).Nodup := by
  rw [created_snoc]
  cases creates : e.creates d with
  | none => simpa using registered.nodup d
  | some oid =>
    rw [List.nodup_append]
    refine ⟨registered.nodup d, by simp, ?_⟩
    intro x before y last same
    obtain rfl : y = oid := List.mem_singleton.mp last
    exact registered.not_created step creates (same ▸ before)

theorem Registered.below_step (before : oid ∈ created d (events ++ [e])) :
    oid < (c.directoryOf d).nextOid := by
  rcases mem_created_snoc.mp before with earlier | creates
  · exact Int.lt_of_lt_of_le (registered.below d oid earlier)
      (step.nextOid_le (registered.known d oid earlier))
  · obtain ⟨mode, rfl⟩ := Event.creates_eq_some.mp creates
    rw [nextOid_of_create step.performed_eq.2]
    omega

theorem Registered.gone_step (before : oid ∈ unlinked d (events ++ [e])) :
    oid ∈ created d (events ++ [e]) := by
  rcases mem_unlinked_snoc.mp before with earlier | unlinks
  · exact mem_created_snoc.mpr (.inl (registered.gone d oid earlier))
  · obtain rfl := Event.unlinks_eq_some.mp unlinks
    obtain ⟨known, performed⟩ := step.performed_eq
    obtain ⟨i, found⟩ := Directory.holds_iff.mp (of_perform_unlink performed).1
    exact mem_created_snoc.mpr (.inl ((registered.entry d oid i known).mp found).1)

theorem Registered.stored_step (before : oid ∈ created d (events ++ [e])) :
    homeAfter b e home d oid < c.contents.size := by
  rcases mem_created_snoc.mp before with earlier | creates
  · exact Nat.lt_of_lt_of_le (registered.homeAfter_lt_size step earlier) step.kept.contents.size_le
  · rw [homeAfter_of_creates creates]
    obtain ⟨mode, rfl⟩ := Event.creates_eq_some.mp creates
    rw [(of_perform_create step.performed_eq.2).2.1]
    exact Nat.lt_succ_self _

theorem Registered.apart_step (before : oid ∈ created d (events ++ [e]))
    (before₁ : oid₁ ∈ created d₁ (events ++ [e]))
    (same : homeAfter b e home d oid = homeAfter b e home d₁ oid₁) : d = d₁ ∧ oid = oid₁ := by
  rcases mem_created_snoc.mp before with earlier | creates
  · rcases mem_created_snoc.mp before₁ with earlier₁ | creates₁
    · rw [registered.homeAfter_eq step earlier, registered.homeAfter_eq step earlier₁] at same
      exact registered.apart d oid d₁ oid₁ earlier earlier₁ same
    · -- the second one is new, so its bytes are not those of the first one
      rw [homeAfter_of_creates creates₁] at same
      exact absurd same (Nat.ne_of_lt (registered.homeAfter_lt_size step earlier))
  · rcases mem_created_snoc.mp before₁ with earlier₁ | creates₁
    · rw [homeAfter_of_creates creates] at same
      exact absurd same.symm (Nat.ne_of_lt (registered.homeAfter_lt_size step earlier₁))
    · -- one event creates one object
      obtain ⟨mode, rfl⟩ := Event.creates_eq_some.mp creates
      obtain ⟨mode₁, eq⟩ := Event.creates_eq_some.mp creates₁
      cases eq
      exact ⟨rfl, rfl⟩

/-- A directory that has just been placed has nothing on record. -/
theorem Registered.entry_of_fresh (oid : Int) (fresh : ¬ b.Has d) (has : c.Has d) :
    (c.directoryOf d).objects[oid]? = none ∧ oid ∉ created d (events ++ [e]) := by
  obtain ⟨empty, journal, spec, resource, rfl⟩ := step.objects_of_fresh fresh has
  constructor
  · simp [empty]
  · rw [mem_created_snoc]
    rintro (earlier | creates)
    · exact fresh (registered.known d oid earlier)
    · cases creates

theorem Registered.entry_step (i : Nat) (has : c.Has d) :
    (c.directoryOf d).objects[oid]? = some i ↔
      oid ∈ created d (events ++ [e]) ∧ oid ∉ unlinked d (events ++ [e]) ∧
        homeAfter b e home d oid = i := by
  by_cases known : b.Has d
  · have entry := registered.entry d oid i known
    rw [mem_created_snoc, mem_unlinked_snoc]
    -- an object is created, or taken out, or all of them stay
    cases creates : e.creates d with
    | some new =>
      obtain ⟨mode, rfl⟩ := Event.creates_eq_some.mp creates
      have stays : Event.unlinks d (.performed d (.create mode : Directory.Op) (.ok new)) = none :=
        rfl
      rw [objects_of_create step.performed_eq.2, stays]
      by_cases same : new = oid
      · subst same
        have unknown : new ∉ created d events := registered.not_created step creates
        have linked : new ∉ unlinked d events := fun gone => unknown (registered.gone d new gone)
        simp [homeAfter, creates, linked]
      · simp [homeAfter, creates, same, entry]
    | none =>
      rw [homeAfter, if_neg (by simp [creates])]
      cases unlinks : e.unlinks d with
      | some old =>
        obtain rfl := Event.unlinks_eq_some.mp unlinks
        rw [objects_of_unlink step.performed_eq.2]
        by_cases same : old = oid
        · simp [same]
        · simp [same, entry]
      | none =>
        rw [step.objects_eq known creates unlinks]
        simp [entry]
  · obtain ⟨missing, unknown⟩ := registered.entry_of_fresh step oid known has
    simp [missing, unknown]

/-- A new descriptor of an object is opened for it, or copied from a descriptor of it. -/
theorem Registered.opened_of_fresh (history : Steps {} events b) (fresh : ¬ b.Has r)
    (has : c.Has r) :
    Opened d oid (events ++ [e]) r ↔
      oid ∈ created d events ∧ (c.objectOf r).contents = home d oid := by
  have unopened : ∀ e' ∈ events, ¬ e'.Yields r := fun e' mem yields =>
    fresh (history.has_of_yields mem yields)
  constructor
  · intro opened
    rcases opened.last unopened with ⟨mode, rfl⟩ | ⟨q, source, rfl⟩
    · -- it has the bytes that the directory has stored
      obtain ⟨known, performed⟩ := step.performed_eq
      obtain ⟨i, found, index, -, -, added⟩ := of_perform_openObject performed
      obtain ⟨before, -, place⟩ := (registered.entry d oid i known).mp found
      refine ⟨before, ?_⟩
      rw [objectOf, added, Cells.get_add, if_pos index.symm, place]
    · -- it has the bytes of what it is copied from
      obtain ⟨known, performed⟩ := step.performed_eq
      rw [objectOf_of_copy performed]
      exact (registered.opened d oid q known).mp (source.of_snoc history step known)
  · rintro ⟨before, place⟩
    cases step.originates fresh has with
    | placed object =>
      -- its bytes are its own
      rw [object] at place
      exact absurd place.symm (Nat.ne_of_lt (registered.stored d oid before))
    | @copied q known copied =>
      rw [objectOf_of_copy copied] at place
      have source : Opened d oid events q := (registered.opened d oid q known).mpr ⟨before, place⟩
      exact .copied source.snoc (List.mem_append_right _ (List.mem_singleton_self _))
    | @opened d₁ oid₁ mode known opened =>
      obtain ⟨i, found, index, -, -, added⟩ := of_perform_openObject opened
      obtain ⟨before₁, -, place₁⟩ := (registered.entry d₁ oid₁ i known).mp found
      rw [objectOf, added, Cells.get_add, if_pos index.symm] at place
      have same : home d oid = home d₁ oid₁ := place.symm.trans place₁.symm
      obtain ⟨rfl, rfl⟩ := registered.apart d oid d₁ oid₁ before before₁ same
      exact .opened (List.mem_append_right _ (List.mem_singleton_self _))

theorem Registered.opened_step (history : Steps {} events b) (has : c.Has r) :
    Opened d oid (events ++ [e]) r ↔
      oid ∈ created d (events ++ [e]) ∧ (c.objectOf r).contents = homeAfter b e home d oid := by
  by_cases known : b.Has r
  · have place : (c.objectOf r).contents < b.contents.size := by
      rw [step.contents_objectOf known]
      exact history.grounded.descriptor r known
    have earlier : Opened d oid (events ++ [e]) r ↔ Opened d oid events r :=
      ⟨fun opened => opened.of_snoc history step known, fun opened => opened.snoc⟩
    rw [earlier, registered.opened d oid r known, ← step.contents_objectOf known, mem_created_snoc,
      homeAfter]
    by_cases creates : e.creates d = some oid
    · -- the object is new, and what was there before has none of its bytes
      have unknown := registered.not_created step creates
      simp [creates, unknown, Nat.ne_of_lt place]
    · simp [creates]
  · have creates : e.creates d = none := (step.originates known has).creates_eq
    rw [registered.opened_of_fresh step history known has]
    simp [homeAfter, creates]

/-- An event keeps the assignment, and extends it by what it creates. -/
theorem Registered.snoc (history : Steps {} events b) :
    c.Registered (events ++ [e]) (homeAfter b e home) where
  known := by
    intro d oid before
    rcases mem_created_snoc.mp before with earlier | creates
    · exact step.has (registered.known d oid earlier)
    · obtain ⟨mode, rfl⟩ := Event.creates_eq_some.mp creates
      exact step.has step.performed_eq.1
  below := fun _ _ before => registered.below_step step before
  nodup := registered.nodup_step step
  gone := fun _ _ before => registered.gone_step step before
  stored := fun _ _ before => registered.stored_step step before
  apart := fun _ _ _ _ before before₁ same => registered.apart_step step before before₁ same
  entry := fun _ _ i has => registered.entry_step step i has
  opened := fun _ _ _ has => registered.opened_step step history has

end Step

theorem registered_empty : Registered {} [] fun _ _ => 0 where
  known := nofun
  below := nofun
  nodup := fun _ => List.nodup_nil
  gone := nofun
  stored := nofun
  apart := nofun
  entry := fun _ _ _ has => absurd has (Nat.not_lt_zero _)
  opened := fun _ _ _ has => absurd has (Nat.not_lt_zero _)

/-- In every history there is such an assignment. -/
theorem Steps.registered (history : Steps {} events b) : ∃ home, b.Registered events home := by
  induction history with
  | nil => exact ⟨_, registered_empty⟩
  | snoc before step ih =>
    obtain ⟨home, registered⟩ := ih
    exact ⟨_, registered.snoc step before⟩

end Bench
end Simulation
end Cancelable
