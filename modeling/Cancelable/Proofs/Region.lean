import Cancelable.Proofs.Level

/-!
# Regions and tokens

A token remembers the depth of its region and nothing else, so two regions of one depth hand out
the same token.  What tells regions apart is where they stand on the stack.  Here the masks that
are in force at a point of a run are read off the stack, each with the place of its frame, and the
depth a poll compares is related to them.

While a region is open and no poll has suspended it, its token works if and only if the region is
the innermost mask.  Once the region is suspended or left, its token works wherever the mask
happens to be at its depth: in a later region, in a region entered from within the poll that
suspends it, or in a finalizer.

Main statement: a token is obeyed in its own region only, exactly as long as it is not applied
under a mask of the same depth while its region is suspended or left
(`State.poll_works_in_own_region_iff`).
-/

namespace Cancelable

variable {B : Backend} {P : Procedures} {ρ : Type}

/-! ## Masks in force -/

/-- A mask raised by a frame: how many frames are below the frame, and the depth below the mask. -/
structure Mask where
  place : Nat
  level : Nat
  deriving DecidableEq, Repr

/-- The masks in force above a frame, given the place of the frame and the masks below it.  A poll
suspends the innermost one. -/
def Frame.masks {a : Algebra} {α β : Type} (place : Nat) (below : List Mask) :
    Frame B P a α β → List Mask
  | .region level => ⟨place, level⟩ :: below
  | .finalizing level => ⟨place, level⟩ :: below
  | .unmasked _ => below.tail
  | _ => below

/-- A frame moves the depth by as much as it changes the number of masks in force. -/
theorem Frame.masks_of_shift {a : Algebra} {α β : Type} {frame : Frame B P a α β} {n m : Nat}
    (h : frame.shift n = some m) (place : Nat) (below : List Mask) :
    (frame.masks place below = below ∧ m = n) ∨
      (frame.masks place below = ⟨place, n⟩ :: below ∧ m = n + 1) ∨
      (frame.masks place below = below.tail ∧ m + 1 = n) := by
  cases frame with
  | region level =>
    simp only [shift] at h
    split at h
    · next e =>
      cases h
      exact .inr (.inl ⟨by rw [e]; rfl, by rw [e]⟩)
    · cases h
  | finalizing level =>
    simp only [shift] at h
    split at h
    · next e =>
      cases h
      exact .inr (.inl ⟨by rw [e]; rfl, by rw [e]⟩)
    · cases h
  | unmasked level =>
    simp only [shift] at h
    split at h
    · next e =>
      cases h
      exact .inr (.inr ⟨rfl, by omega⟩)
    · cases h
  | _ =>
    cases h
    exact .inl ⟨rfl, rfl⟩

namespace Stack

/-- The masks in force, innermost first. -/
def inForce : {a : Algebra} → {α : Type} → Stack B P a α ρ → List Mask
  | _, _, .nil => []
  | _, _, .cons frame rest => frame.masks rest.height rest.inForce
  | _, _, .embedded _ rest => rest.inForce

variable {a : Algebra} {α : Type}

/-- Each mask in force accounts for one level of the depth, and the innermost for the last. -/
theorem level_of_inForce {m₀ m : Nat} {site : Site B a} {stack : Stack B P a α ρ}
    (h : stack.level? m₀ site = some m) {i : Nat} {mask : Mask}
    (at_i : stack.inForce[i]? = some mask) : mask.level + i + 1 = m := by
  induction stack generalizing m i mask with
  | nil => cases at_i
  | embedded outside rest ih =>
    rcases Option.bind_eq_some_iff.mp h with ⟨n, below, e⟩
    split at e
    · cases e
      exact ih below at_i
    · cases e
  | cons frame rest ih =>
    rcases level?_rest h with ⟨n, below, shifted⟩
    change (frame.masks rest.height rest.inForce)[i]? = some mask at at_i
    rcases Frame.masks_of_shift shifted rest.height rest.inForce with
      ⟨masks, rfl⟩ | ⟨masks, rfl⟩ | ⟨masks, rfl⟩
    · rw [masks] at at_i
      exact ih below at_i
    · rw [masks] at at_i
      cases i with
      | zero =>
        cases at_i
        rfl
      | succ i =>
        have outer : mask.level + i + 1 = n := ih below at_i
        omega
    · -- the mask that is the `i`-th now was one further out before the poll
      rw [masks, List.getElem?_tail] at at_i
      have outer : mask.level + (i + 1) + 1 = m + 1 := ih below at_i
      omega

/-- Of the masks in force the one at the present depth is the innermost. -/
theorem innermost_iff {m₀ m : Nat} {site : Site B a} {stack : Stack B P a α ρ}
    (h : stack.level? m₀ site = some m) {mask : Mask} (active : mask ∈ stack.inForce) :
    stack.inForce.head? = some mask ↔ mask.level + 1 = m := by
  rcases List.mem_iff_getElem?.mp active with ⟨i, at_i⟩
  have depth : mask.level + i + 1 = m := level_of_inForce h at_i
  constructor
  · intro head
    rw [List.head?_eq_getElem?] at head
    exact level_of_inForce h head
  · intro own
    obtain rfl : i = 0 := by omega
    rw [List.head?_eq_getElem?]
    exact at_i

end Stack

/-! ## Where a token works -/

namespace State

/-- How a run goes on from a point: `true` as long as all its states have met a condition, `false`
from the first one on that does not. -/
inductive Since (bodies : Bodies B P) (rt : Runtime) (inside : State B P ρ → Prop)
    (s₁ : State B P ρ) (sc₁ : Scene B) : Bool → State B P ρ → Scene B → Prop where
  | here : Since bodies rt inside s₁ sc₁ true s₁ sc₁
  | still {s s' : State B P ρ} {sc sc' : Scene B} {ops : List (Executed B P)}
      (before : Since @bodies rt inside s₁ sc₁ true s sc)
      (last : Advances bodies rt s sc ops s' sc') (h : inside s') :
      Since bodies rt inside s₁ sc₁ true s' sc'
  | left {s s' : State B P ρ} {sc sc' : Scene B} {ops : List (Executed B P)}
      (before : Since @bodies rt inside s₁ sc₁ true s sc)
      (last : Advances bodies rt s sc ops s' sc') (h : ¬inside s') :
      Since bodies rt inside s₁ sc₁ false s' sc'
  | later {s s' : State B P ρ} {sc sc' : Scene B} {ops : List (Executed B P)}
      (before : Since @bodies rt inside s₁ sc₁ false s sc)
      (last : Advances bodies rt s sc ops s' sc') :
      Since bodies rt inside s₁ sc₁ false s' sc'

variable {bodies : Bodies B P} {rt : Runtime}

theorem Since.progress {inside : State B P ρ → Prop} {s₁ s : State B P ρ} {sc₁ sc : Scene B}
    {isOpen : Bool} (h : Since bodies rt inside s₁ sc₁ isOpen s sc) :
    ∃ ops, Progress bodies rt (fun _ => True) s₁ sc₁ ops s sc := by
  induction h with
  | here => exact ⟨[], .here trivial⟩
  | still _ last _ ih | left _ last _ ih | later _ last ih =>
    rcases ih with ⟨ops, before⟩
    exact ⟨_, before.next last trivial⟩

/-- The next step lowers the mask of the program's fiber. -/
def Lowers (bodies : Bodies B P) (rt : Runtime) (s : State B P ρ) (sc : Scene B) : Prop :=
  (s.step bodies rt sc).scene.fibers.mask s.fiber < sc.fibers.mask s.fiber

section Poll

variable {s : State B P ρ} {sc : Scene B} {token : Token} {q : Program B P s.a s.α}

/-- A poll lowers the mask exactly if the mask is at the depth of its token. -/
theorem lowers_poll_iff (poll : s.control = .run (.poll token q)) :
    s.Lowers bodies rt sc ↔ sc.fibers.mask s.fiber = token.depth := by
  unfold Lowers
  constructor
  · intro lowers
    by_cases own : sc.fibers.mask s.fiber = token.depth
    · exact own
    refine absurd lowers ?_
    cases canceled : sc.fibers.isCanceled s.fiber with
    | true =>
      rw [step_of_run poll, run_of_canceled rfl canceled]
      exact Nat.lt_irrefl _
    | false =>
      rw [step_of_stale_poll poll canceled own]
      exact Nat.lt_irrefl _
  · intro own
    rcases step_of_own_poll bodies rt poll own with ⟨control, sc', step, lowered⟩
    have depth : token.outer + 1 = token.depth := token.outer_add_one
    rw [step]
    show sc'.fibers.mask s.fiber < _
    omega

end Poll

/-- The point right after a region was entered. -/
def entered {a : Algebra} {α : Type} (f : Fiber) (calls level : Nat) (site : Site B a)
    (body : Token → Program B P a α) (stack : Stack B P a α ρ) : State B P ρ :=
  ⟨f, calls, site, .run (body ⟨level + 1, level.succ_pos⟩), .cons (.region level) stack⟩

/-- Consider a region that is entered at some point of a run, and a later point where the token it
handed out is applied.  The token lowers the mask there precisely in its own region, that is, if the
region is still open and its mask is the innermost one in force, exactly if one of two things
holds: the region is open and not suspended by a poll, or the mask is not at the depth of the
token.  If the mask is lowered, it is brought to the depth outside the region; if it is not, and
no cancellation is found, the program goes on as it is at the depth there was. -/
theorem poll_works_in_own_region_iff {a₀ a : Algebra} {α : Type} {f : Fiber}
    {handle : B.Handle a₀} {p : Program B P a₀ ρ} {sc₀ sc₁ sc : Scene B}
    {ops : List (Executed B P)} {calls : Nat} {site : Site B a} {body : Token → Program B P a α}
    {stack : Stack B P a α ρ} {isOpen : Bool} {s : State B P ρ} {q : Program B P s.a s.α}
    (before : Progress bodies rt (fun _ => True) (start f handle p sc₀.fibers) sc₀ ops
      ⟨f, calls, site, .run (.uncancelable body), stack⟩ sc₁)
    (clear : sc₁.fibers.isCanceled f = false) (level : Nat) (depth : sc₁.fibers.mask f = level)
    (since : Since bodies rt (State.Over site (.cons (.region level) stack))
      (entered f calls level site body stack) (sc₁.setMask f (level + 1)) isOpen s sc)
    (poll : s.control = .run (.poll ⟨level + 1, level.succ_pos⟩ q)) :
    ((s.Lowers bodies rt sc ↔
        isOpen = true ∧ s.stack.inForce.head? = some ⟨stack.height, level⟩) ↔
      (isOpen = true ∧ ⟨stack.height, level⟩ ∈ s.stack.inForce) ∨
        sc.fibers.mask f ≠ level + 1) ∧
    (s.Lowers bodies rt sc → (s.step bodies rt sc).scene.fibers.mask f = level) ∧
    (¬s.Lowers bodies rt sc → sc.fibers.isCanceled f = false →
      s.step bodies rt sc = .more { s with control := .run q } sc) := by
  -- the points before the region was entered and after make one run, so the level of the stack
  -- where the token is applied is the mask depth there
  have enter : step bodies rt ⟨f, calls, site, .run (.uncancelable body), stack⟩ sc₁ =
      .more (entered f calls level site body stack) (sc₁.setMask f (level + 1)) := by
    refine (observing_of_clear clear _).trans ?_
    rw [depth]
    rfl
  rcases since.progress with ⟨ops', after⟩
  have whole := (before.next (.step enter) trivial).trans after
  obtain rfl : s.fiber = f := whole.fiber_eq
  have lowers : s.Lowers bodies rt sc ↔ sc.fibers.mask s.fiber = level + 1 :=
    lowers_poll_iff poll
  have outside (h : s.Lowers bodies rt sc) :
      (s.step bodies rt sc).scene.fibers.mask s.fiber = level := by
    rcases step_of_own_poll bodies rt poll (lowers.mp h) with ⟨control, sc', step, lowered⟩
    rw [step]
    exact lowered
  have inert (h : ¬s.Lowers bodies rt sc) (clear : sc.fibers.isCanceled s.fiber = false) :
      s.step bodies rt sc = .more { s with control := .run q } sc :=
    step_of_stale_poll poll clear fun own => h (lowers.mpr own)
  refine ⟨?_, outside, inert⟩
  rw [lowers]
  constructor
  · intro own
    by_cases e : sc.fibers.mask s.fiber = level + 1
    · rcases own.mp e with ⟨isOpen, head⟩
      exact .inl ⟨isOpen, List.mem_of_mem_head? head⟩
    · exact .inr e
  · rintro (⟨isOpen, active⟩ | stale)
    · -- the mask of an active region accounts for its depth, so only the innermost is at the top
      rw [Stack.innermost_iff whole.level active, and_iff_right isOpen]
      exact eq_comm
    · -- a region whose mask is the innermost one has the mask at the depth of its token
      refine ⟨fun own => absurd own stale, ?_⟩
      rintro ⟨_, head⟩
      rw [List.head?_eq_getElem?] at head
      exact absurd (Stack.level_of_inForce whole.level head).symm stale

/-- In its own region a token works. -/
theorem poll_works_in_region :
    let f : Fiber := ⟨.numbered 0, .numbered 0⟩
    let sc : Scene .notes := .blank {}
    let body (token : Token) : Program .notes .none .connection Unit := .poll token (.note 0)
    let s : State .notes .none Unit := entered f 0 0 ⟨(), 0, []⟩ body .nil
    (s.step Bodies.none .inline (sc.setMask f 1)).scene.fibers.mask f = 0 := by
  intro f sc body s
  have before : Progress Bodies.none .inline (fun _ => True)
      (start f (a := .connection) () (.uncancelable body) sc.fibers) sc []
      ⟨f, 0, ⟨(), 0, []⟩, .run (.uncancelable body), .nil⟩ sc := .here trivial
  obtain ⟨works, lowered, _⟩ :=
    poll_works_in_own_region_iff (q := .note 0) before rfl 0 rfl .here rfl
  apply lowered
  rw [works.mpr (.inl ⟨rfl, by decide⟩)]
  exact ⟨rfl, rfl⟩

/-- The token of a region works in a region nested in it too, if that one is entered from within a
poll of the token: the nested region is lowered, although it is the innermost one. -/
theorem poll_works_in_nested_region :
    let f : Fiber := ⟨.numbered 0, .numbered 0⟩
    let sc : Scene .notes := .blank {}
    let body (outer : Token) : Program .notes .none .connection Unit :=
      .poll outer (.uncancelable fun _ => .poll outer (.note 0))
    let site : Site .notes .connection := ⟨(), 0, []⟩
    ¬∀ isOpen s sc' q,
      Since Bodies.none .inline (State.Over site (.cons (.region 0) .nil))
        (entered f 0 0 site body .nil) (sc.setMask f 1) isOpen s sc' →
      s.control = .run (.poll ⟨1, Nat.one_pos⟩ q) → s.Lowers Bodies.none .inline sc' →
        isOpen = true ∧ s.stack.inForce.head? = some ⟨0, 0⟩ := by
  intro f sc body site claim
  -- the poll suspends the outer region, and the nested one is entered at the depth below it
  let outer : Token := ⟨1, Nat.one_pos⟩
  let polled : State .notes .none Unit :=
    ⟨f, 0, site, .run (.uncancelable fun _ => .poll outer (.note 0)),
      .cons (.unmasked 1) (.cons (.region 0) .nil)⟩
  let nested : State .notes .none Unit :=
    ⟨f, 0, site, .run (.poll outer (.note 0)),
      .cons (.region 0) (.cons (.unmasked 1) (.cons (.region 0) .nil))⟩
  have first : Since Bodies.none .inline (State.Over site (.cons (.region 0) .nil))
      (entered f 0 0 site body .nil) (sc.setMask f 1) true polled sc :=
    .still .here (.step rfl) (.cons .here)
  have second : Since Bodies.none .inline (State.Over site (.cons (.region 0) .nil))
      (entered f 0 0 site body .nil) (sc.setMask f 1) true nested (sc.setMask f 1) :=
    .still first (.step rfl) (.cons (.cons .here))
  have lowers : nested.Lowers Bodies.none .inline (sc.setMask f 1) := (lowers_poll_iff rfl).mpr rfl
  have innermost := (claim true nested (sc.setMask f 1) (.note 0) second rfl lowers).2
  exact absurd innermost (by decide)

end State
end Cancelable
