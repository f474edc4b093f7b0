import Cancelable.Proofs.Descriptor

/-!
# What an operation leaves alone

The resources of a bench refer to one another by number.  An operation on one of them changes that
one, and nothing else that has been given out: what it makes gets new numbers.  The bytes of large
objects are shared by the descriptors that refer to them, so they are kept apart from these, and
only writing and truncating change them.

Main statements: what an operation keeps (`Bench.kept_perform`), and that one that fails changes no
resource at all (`Bench.same_of_perform_error`).
-/

namespace Cancelable
namespace Simulation

/-! ## Cells -/

namespace Cells

variable {α : Type} [Inhabited α] {p : Nat → Prop} {c d e : Cells α}

/-- No number is taken back, and what was given out under a number is kept, unless `p` holds of
it. -/
structure Kept (p : Nat → Prop) (c d : Cells α) : Prop where
  size_le : c.size ≤ d.size
  get_eq : ∀ ⦃i⦄, i < c.size → ¬ p i → d.get i = c.get i

theorem Kept.refl (c : Cells α) : Kept p c c :=
  ⟨Nat.le_refl _, fun _ _ _ => rfl⟩

theorem Kept.trans (first : Kept p c d) (second : Kept p d e) : Kept p c e where
  size_le := Nat.le_trans first.size_le second.size_le
  get_eq := by
    intro i given other
    have later : i < d.size := Nat.lt_of_lt_of_le given first.size_le
    exact (second.get_eq later other).trans (first.get_eq given other)

theorem kept_set (c : Cells α) {i : Nat} (x : α) (own : p i) : Kept p c (c.set i x) where
  size_le := Nat.le_refl _
  get_eq := by
    intro j _ other
    have ne : i ≠ j := fun eq => other (eq ▸ own)
    simp [get_set, ne]

theorem kept_add (c : Cells α) (x : α) : Kept p c (c.add x).2 where
  size_le := Nat.le_succ _
  get_eq := by
    intro j given _
    have ne : c.size ≠ j := Nat.ne_of_gt given
    simp [get_add, ne]

end Cells

/-! ## Benches -/

namespace Bench

/-- What was given out is kept, but for the resources of which `own` holds and the bytes of which
`bytes` holds. -/
structure Kept (own : Algebra → Nat → Prop) (bytes : Nat → Prop) (b b' : Bench) : Prop where
  probes_le : b.probes.size ≤ b'.probes.size
  contents : b.contents.Kept bytes b'.contents
  largeObjects : b.largeObjects.Kept (own .largeObject) b'.largeObjects
  directories : b.directories.Kept (own .directory) b'.directories
  copyIns : b.copyIns.Kept (own .copyIn) b'.copyIns
  copyOuts : b.copyOuts.Kept (own .copyOut) b'.copyOuts
  copyManagers : b.copyManagers.Kept (own .copyManager) b'.copyManagers
  fastpaths : b.fastpaths.Kept (own .fastpath) b'.fastpaths
  connections : b.connections.Kept (own .connection) b'.connections

/-- Benches with the same resources.  Journals and probes may differ. -/
structure Same (b b' : Bench) : Prop where
  contents : b'.contents = b.contents
  largeObjects : b'.largeObjects = b.largeObjects
  directories : b'.directories = b.directories
  copyIns : b'.copyIns = b.copyIns
  copyOuts : b'.copyOuts = b.copyOuts
  copyManagers : b'.copyManagers = b.copyManagers
  fastpaths : b'.fastpaths = b.fastpaths
  connections : b'.connections = b.connections

variable {own : Algebra → Nat → Prop} {bytes : Nat → Prop} {b b' b'' : Bench}

theorem Kept.refl (b : Bench) : Kept own bytes b b :=
  ⟨Nat.le_refl _, .refl _, .refl _, .refl _, .refl _, .refl _, .refl _, .refl _, .refl _⟩

theorem Kept.trans (first : Kept own bytes b b') (second : Kept own bytes b' b'') :
    Kept own bytes b b'' where
  probes_le := Nat.le_trans first.probes_le second.probes_le
  contents := first.contents.trans second.contents
  largeObjects := first.largeObjects.trans second.largeObjects
  directories := first.directories.trans second.directories
  copyIns := first.copyIns.trans second.copyIns
  copyOuts := first.copyOuts.trans second.copyOuts
  copyManagers := first.copyManagers.trans second.copyManagers
  fastpaths := first.fastpaths.trans second.fastpaths
  connections := first.connections.trans second.connections

theorem Same.refl (b : Bench) : Same b b :=
  ⟨rfl, rfl, rfl, rfl, rfl, rfl, rfl, rfl⟩

/-! ## Replaced resources -/

section Replaced

variable (b : Bench) {i : Nat}

theorem kept_setContents (x : Bytes) (mine : bytes i) :
    Kept own bytes b { b with contents := b.contents.set i x } :=
  { (Kept.refl b : Kept own bytes b b) with contents := b.contents.kept_set x mine }

theorem kept_setLargeObject (x : LargeObject) (mine : own .largeObject i) :
    Kept own bytes b { b with largeObjects := b.largeObjects.set i x } :=
  { Kept.refl b with largeObjects := b.largeObjects.kept_set x mine }

theorem kept_setDirectory (x : Directory) (mine : own .directory i) :
    Kept own bytes b { b with directories := b.directories.set i x } :=
  { Kept.refl b with directories := b.directories.kept_set x mine }

theorem kept_setCopyIn (x : CopyIn) (mine : own .copyIn i) :
    Kept own bytes b { b with copyIns := b.copyIns.set i x } :=
  { Kept.refl b with copyIns := b.copyIns.kept_set x mine }

theorem kept_setCopyOut (x : CopyOut) (mine : own .copyOut i) :
    Kept own bytes b { b with copyOuts := b.copyOuts.set i x } :=
  { Kept.refl b with copyOuts := b.copyOuts.kept_set x mine }

theorem kept_setFastpath (x : Fastpath) (mine : own .fastpath i) :
    Kept own bytes b { b with fastpaths := b.fastpaths.set i x } :=
  { Kept.refl b with fastpaths := b.fastpaths.kept_set x mine }

theorem kept_setConnection (x : Connection) (mine : own .connection i) :
    Kept own bytes b { b with connections := b.connections.set i x } :=
  { Kept.refl b with connections := b.connections.kept_set x mine }

end Replaced

/-! ## New resources -/

theorem kept_newProbe (b : Bench) (journal : String) : Kept own bytes b (b.newProbe journal).2 :=
  { Kept.refl b with probes_le := Nat.le_succ _ }

theorem kept_newContents (b : Bench) : Kept own bytes b b.newContents.2 :=
  { (Kept.refl b : Kept own bytes b b) with contents := b.contents.kept_add _ }

theorem kept_newLargeObject (b : Bench) (probe : Nat) (oid : Int) (contents : Nat) :
    Kept own bytes b (b.newLargeObject probe oid contents).2 :=
  { Kept.refl b with largeObjects := b.largeObjects.kept_add _ }

theorem kept_newDirectory (b : Bench) (journal : String) :
    Kept own bytes b (b.newDirectory journal).2 :=
  (kept_newProbe b journal).trans
    { Kept.refl _ with directories := Cells.kept_add _ _ }

theorem kept_newCopyIn (b : Bench) (journal : String) (fields : Int) :
    Kept own bytes b (b.newCopyIn journal fields).2 :=
  (kept_newProbe b journal).trans { Kept.refl _ with copyIns := Cells.kept_add _ _ }

theorem kept_newCopyOut (b : Bench) (journal : String) (fields : Int) (rows : List Bytes) :
    Kept own bytes b (b.newCopyOut journal fields rows).2 :=
  (kept_newProbe b journal).trans { Kept.refl _ with copyOuts := Cells.kept_add _ _ }

theorem kept_newCopyManager (b : Bench) (journal : String) (table : List Bytes) :
    Kept own bytes b (b.newCopyManager journal table).2 :=
  (kept_newProbe b journal).trans { Kept.refl _ with copyManagers := Cells.kept_add _ _ }

theorem kept_newFastpath (b : Bench) (journal : String) :
    Kept own bytes b (b.newFastpath journal).2 :=
  (kept_newProbe b journal).trans { Kept.refl _ with fastpaths := Cells.kept_add _ _ }

theorem kept_newConnection (b : Bench) (journal : String) (pid : Int) :
    Kept own bytes b (b.newConnection journal pid).2 :=
  -- the connection itself comes last, after the resources that it gives access to
  (kept_newProbe b journal).trans <| (kept_newCopyManager _ journal []).trans <|
    (kept_newFastpath _ journal).trans <| (kept_newDirectory _ journal).trans
      { Kept.refl _ with connections := Cells.kept_add _ _ }

end Bench

/-! ## What performing keeps -/

namespace Bench

/-- What an operation on a resource may change: the resource itself. -/
def owns {a : Algebra} (r : Ref a) (a' : Algebra) (i : Nat) : Prop :=
  a' = a ∧ i = r.index

/-- The bytes that an operation may change: those of a large object, if it writes or truncates. -/
def rewrites (b : Bench) : {a : Algebra} → Ref a → Op a → Nat → Prop
  | .largeObject, r, .write _, i => i = (b.largeObjects.get r.index).contents
  | .largeObject, r, .truncate _, i => i = (b.largeObjects.get r.index).contents
  | _, _, _, _ => False

variable {own : Algebra → Nat → Prop} {bytes : Nat → Prop} {b b' : Bench}

theorem kept_afterwards {r : Ref .largeObject} {o : LargeObject.Op}
    (mine : own .largeObject r.index) (ours : ∀ i, b.rewrites r o i → bytes i) :
    b.Kept own bytes (b.afterwards r o) := by
  cases o with
  | oid | tell | size => exact .refl b
  | read | seek | close => exact b.kept_setLargeObject _ mine
  | write patch => exact (b.kept_setContents _ (ours _ rfl)).trans (kept_setLargeObject _ _ mine)
  | truncate len => exact b.kept_setContents _ (ours _ rfl)
  | copy => exact b.kept_newLargeObject _ _ _

theorem kept_work {a : Algebra} {r : Ref a} {o : Op a} {x : Op.Answer Ref o}
    (ran : (work r o).run b = .ok (x, b')) : b.Kept (owns r) (b.rewrites r o) b' := by
  have mine : owns r a r.index := ⟨rfl, rfl⟩
  cases a with
  | connection =>
    exact Connection.keeps_act (fun b x _ kept => kept.trans (b.kept_setConnection x mine)) o
      (.refl b) ran
  | copyIn =>
    exact CopyIn.keeps_act (fun b x _ kept => kept.trans (b.kept_setCopyIn x mine)) o (.refl b) ran
  | copyOut =>
    exact CopyOut.keeps_act (fun b x _ kept => kept.trans (b.kept_setCopyOut x mine)) o
      (.refl b) ran
  | copyManager =>
    exact CopyManager.keeps_act (r := r) (fun b j f kept => kept.trans (b.kept_newCopyIn j f))
      (fun b j f rows kept => kept.trans (b.kept_newCopyOut j f rows)) o (.refl b) ran
  | fastpath =>
    exact Fastpath.keeps_act (fun b x _ kept => kept.trans (b.kept_setFastpath x mine)) o (.refl b)
      ran
  | directory =>
    exact Directory.keeps_act (fun b x _ kept => kept.trans (b.kept_setDirectory x mine))
      (fun b kept => kept.trans b.kept_newContents)
      (fun b oid c kept => kept.trans (b.kept_newLargeObject _ oid c)) o (.refl b) ran
  | largeObject =>
    have due := LargeObject.run_act b r o
    cases answered : LargeObject.answer (b.objectOf r) (b.bytesOf r) b.largeObjects.size o with
    | error stop =>
      rw [answered] at due
      cases due.symm.trans ran
    | ok y =>
      rw [answered] at due
      cases due.symm.trans ran
      exact kept_afterwards mine fun _ own => own

/-- A failing operation changes no resource. -/
theorem same_of_perform_error {a : Algebra} {r : Ref a} {o : Op a} {stop : Stop}
    (performed : b.perform r o = (.error stop, b')) : b.Same b' := by
  cases fails_of_perform performed with
  | away => exact .refl _
  | faulted | stopped => exact ⟨rfl, rfl, rfl, rfl, rfl, rfl, rfl, rfl⟩

theorem kept_noted {a : Algebra} (b : Bench) (r : Ref a) (o : Op a) :
    b.Kept own bytes (b.noted r o) :=
  { (Kept.refl b : Kept own bytes b b) with }

theorem rewrites_noted {a : Algebra} (b : Bench) (r : Ref a) (o : Op a) :
    (b.noted r o).rewrites r o = b.rewrites r o := by
  cases a with
  | largeObject => cases o <;> rfl
  | _ => rfl

/-- An operation changes the resource it is on, and the bytes of a large object only if it writes
or truncates. -/
theorem kept_perform {a : Algebra} (b : Bench) (r : Ref a) (o : Op a) :
    b.Kept (owns r) (b.rewrites r o) (b.perform r o).2 := by
  obtain ⟨answer, b', performed⟩ : ∃ answer b', b.perform r o = (answer, b') := ⟨_, _, rfl⟩
  rw [performed]
  cases answer with
  | error stop =>
    cases fails_of_perform performed with
    | away => exact .refl _
    | faulted => exact { (Kept.refl b : Kept (owns r) (b.rewrites r o) b b) with }
    | stopped => exact kept_noted b r o
  | ok x =>
    obtain ⟨-, -, ran⟩ := perform_eq_ok_iff.mp performed
    have kept : (b.noted r o).Kept (owns r) ((b.noted r o).rewrites r o) b' := kept_work ran
    rw [rewrites_noted] at kept
    exact (kept_noted b r o).trans kept

end Bench
end Simulation
end Cancelable
