import Std.Data.ExtTreeMap
import Std.Data.ExtTreeSet
import Cancelable.Text.Record

/-!
# Fibers

A fiber is the scope of a cancellation: a request flag, raised once and never lowered, and a mask
depth that says how many regions at present put cancellation off.  Fibers are references: a fork of
a fiber shares its request and has a mask of its own, and a clone shares both.

The flags and depths of all fibers are held in one table.  A fiber nobody has touched has no
request and the depth zero, so a fiber need not be entered before it is used.

Main statement: tables that show the same flags and the same depths, and have handed out as many
numbers, are equal (`Fibers.ext_of_view`).
-/

namespace Cancelable

/-! ## References -/

/-- What a flag or a depth is stored under. -/
inductive Fiber.Key where
  | named (name : String)
  | numbered (number : Nat)
  deriving DecidableEq, Repr

namespace Fiber.Key

/-- Names come before numbers. -/
instance : Ord Fiber.Key where
  compare
    | .named a, .named b => compare a b
    | .named _, .numbered _ => .lt
    | .numbered _, .named _ => .gt
    | .numbered a, .numbered b => compare a b

instance : Std.TransOrd Fiber.Key where
  eq_swap {a b} := by
    cases a <;> cases b
    case named.named => exact Std.OrientedOrd.eq_swap (α := String)
    case numbered.numbered => exact Std.OrientedOrd.eq_swap (α := Nat)
    all_goals rfl
  isLE_trans {a b c} h k := by
    cases a <;> cases b <;> cases c
    case named.named.named => exact Std.TransOrd.isLE_trans (α := String) h k
    case numbered.numbered.numbered => exact Std.TransOrd.isLE_trans (α := Nat) h k
    case named.named.numbered => rfl
    case named.numbered.numbered => rfl
    case named.numbered.named => cases k
    case numbered.named.named => cases h
    case numbered.named.numbered => cases h
    case numbered.numbered.named => cases k

instance : Std.LawfulEqOrd Fiber.Key where
  eq_of_compare {a b} h := by
    cases a <;> cases b
    case named.named => exact congrArg _ (Std.LawfulEqOrd.eq_of_compare (α := String) h)
    case numbered.numbered => exact congrArg _ (Std.LawfulEqOrd.eq_of_compare (α := Nat) h)
    all_goals cases h

end Fiber.Key

/-- A reference to a request flag and to a mask depth. -/
structure Fiber where
  request : Fiber.Key
  mask : Fiber.Key
  deriving DecidableEq, Repr

/-- The fiber known by `name` alone. -/
def Fiber.ofName (name : String) : Fiber :=
  ⟨.named name, .named name⟩

/-- A permission to lower the mask again, handed to the body of a region.  It remembers only the
depth its region brought the mask to, which is never zero. -/
structure Token where
  depth : Nat
  depth_pos : 0 < depth
  deriving DecidableEq, Repr

/-- The depth outside the region that handed the token out. -/
def Token.outer (t : Token) : Nat :=
  t.depth - 1

theorem Token.outer_add_one (t : Token) : t.outer + 1 = t.depth :=
  Nat.sub_add_cancel t.depth_pos

def Token.structured (t : Token) : String :=
  Text.tuple "Poll" [Text.record "HostPoll" [("depth", toString t.depth)]]

/-! ## The table -/

/-- The flags and depths of all fibers. -/
structure Fibers where
  requests : Std.ExtTreeSet Fiber.Key := ∅
  /-- The depths other than zero. -/
  masks : Std.ExtTreeMap Fiber.Key Nat := ∅
  numbers : Nat := 0
  masks_ne_zero : ∀ k : Fiber.Key, masks[k]? ≠ some 0 := by simp

namespace Fibers

/-- Whether cancellation of the fiber has been requested. -/
def isRequested (fs : Fibers) (f : Fiber) : Bool :=
  fs.requests.contains f.request

/-- The mask depth of the fiber. -/
def mask (fs : Fibers) (f : Fiber) : Nat :=
  fs.masks.getD f.mask 0

/-- Whether some region of the fiber puts cancellation off. -/
def isMasked (fs : Fibers) (f : Fiber) : Bool :=
  0 < fs.mask f

/-- Whether an observation by the fiber finds it canceled: requested, and not put off. -/
def isCanceled (fs : Fibers) (f : Fiber) : Bool :=
  fs.isRequested f && !fs.isMasked f

/-- Request the cancellation of the fiber. -/
def cancel (fs : Fibers) (f : Fiber) : Fibers :=
  { fs with requests := fs.requests.insert f.request }

/-- Raise every flag of a list. -/
def cancelAll (fs : Fibers) : List Fiber → Fibers
  | [] => fs
  | f :: rest => (fs.cancel f).cancelAll rest

/-- Set the mask depth of the fiber. -/
def setMask (fs : Fibers) (f : Fiber) (depth : Nat) : Fibers :=
  if h : depth = 0 then
    { fs with
      masks := fs.masks.erase f.mask
      masks_ne_zero := by
        intro k
        rw [Std.ExtTreeMap.getElem?_erase]
        split
        · exact nofun
        · exact fs.masks_ne_zero k }
  else
    { fs with
      masks := fs.masks.insert f.mask depth
      masks_ne_zero := by
        intro k
        rw [Std.ExtTreeMap.getElem?_insert]
        split
        · simpa using h
        · exact fs.masks_ne_zero k }

/-- A fiber that shares the request of `f` and has a mask of its own. -/
def fork (fs : Fibers) (f : Fiber) : Fiber × Fibers :=
  (⟨f.request, .numbered fs.numbers⟩, { fs with numbers := fs.numbers + 1 })

/-- A fiber that shares nothing. -/
def fresh (fs : Fibers) : Fiber × Fibers :=
  (⟨.numbered fs.numbers, .numbered fs.numbers⟩, { fs with numbers := fs.numbers + 1 })

def structured (fs : Fibers) (f : Fiber) : String :=
  Text.record "Fiber"
    [("cancel_requested", toString (fs.isRequested f)), ("mask", toString (fs.mask f))]

/-! ## Reading what was written -/

theorem mask_setMask (fs : Fibers) (f g : Fiber) (n : Nat) :
    (fs.setMask f n).mask g = if f.mask = g.mask then n else fs.mask g := by
  unfold setMask
  split
  · next h => simp [mask, h, Std.ExtTreeMap.getD_erase]
  · simp [mask, Std.ExtTreeMap.getD_insert]

@[simp] theorem mask_setMask_self (fs : Fibers) (f : Fiber) (n : Nat) :
    (fs.setMask f n).mask f = n := by
  simp [mask_setMask]

@[simp] theorem requests_setMask (fs : Fibers) (f : Fiber) (n : Nat) :
    (fs.setMask f n).requests = fs.requests := by
  unfold setMask
  split <;> rfl

@[simp] theorem numbers_setMask (fs : Fibers) (f : Fiber) (n : Nat) :
    (fs.setMask f n).numbers = fs.numbers := by
  unfold setMask
  split <;> rfl

@[simp] theorem isRequested_setMask (fs : Fibers) (f g : Fiber) (n : Nat) :
    (fs.setMask f n).isRequested g = fs.isRequested g := by
  simp [isRequested]

@[simp] theorem mask_cancel (fs : Fibers) (f g : Fiber) : (fs.cancel f).mask g = fs.mask g := rfl

theorem isRequested_cancel (fs : Fibers) (f g : Fiber) :
    (fs.cancel f).isRequested g = (f.request == g.request || fs.isRequested g) := by
  rw [Bool.eq_iff_iff]
  simp [isRequested, cancel]

@[simp] theorem mask_cancelAll (fs : Fibers) (l : List Fiber) (g : Fiber) :
    (fs.cancelAll l).mask g = fs.mask g := by
  induction l generalizing fs with
  | nil => rfl
  | cons f rest ih => rw [cancelAll, ih, mask_cancel]

/-! ## Equal tables -/

/-- The depth shown for a key decides what is stored under it. -/
theorem getElem?_masks (fs : Fibers) (k : Fiber.Key) :
    fs.masks[k]? = if fs.masks.getD k 0 = 0 then none else some (fs.masks.getD k 0) := by
  have h := fs.masks_ne_zero k
  rw [Std.ExtTreeMap.getD_eq_getD_getElem?]
  cases e : fs.masks[k]? with
  | none => rfl
  | some n =>
    have hn : n ≠ 0 := fun z => h (by rw [e, z])
    simp [hn]

/-- Tables that show the same are equal. -/
theorem ext_of_view {fs gs : Fibers} (requested : ∀ f, fs.isRequested f = gs.isRequested f)
    (depth : ∀ f, fs.mask f = gs.mask f) (count : fs.numbers = gs.numbers) : fs = gs := by
  have hr : fs.requests = gs.requests := by
    apply Std.ExtTreeSet.ext_contains
    intro k
    exact requested ⟨k, k⟩
  have hm : fs.masks = gs.masks := by
    apply Std.ExtTreeMap.ext_getElem?
    intro k
    have hk : fs.masks.getD k 0 = gs.masks.getD k 0 := depth ⟨k, k⟩
    rw [getElem?_masks, getElem?_masks, hk]
  cases fs
  cases gs
  cases hr
  cases hm
  cases count
  rfl

/-- Setting a depth to what it is changes nothing. -/
theorem setMask_mask (fs : Fibers) (f : Fiber) : fs.setMask f (fs.mask f) = fs := by
  apply ext_of_view
  · simp
  · intro g
    rw [mask_setMask]
    split
    · next h => simp [mask, h]
    · rfl
  · simp

/-- Of two depths set one after the other the later one counts. -/
@[simp] theorem setMask_setMask (fs : Fibers) (f : Fiber) (m n : Nat) :
    (fs.setMask f m).setMask f n = fs.setMask f n := by
  apply ext_of_view
  · simp
  · intro g
    simp only [mask_setMask]
    split <;> rfl
  · simp

/-! ## Requests are never withdrawn -/

theorem isRequested_cancelAll (fs : Fibers) (l : List Fiber) {g : Fiber}
    (h : fs.isRequested g = true) : (fs.cancelAll l).isRequested g = true := by
  induction l generalizing fs with
  | nil => exact h
  | cons f rest ih =>
    apply ih
    rw [isRequested_cancel, h, Bool.or_true]

/-! ## Observations -/

/-- A mask puts every cancellation off. -/
theorem isCanceled_of_mask_pos {fs : Fibers} {f : Fiber} (h : 0 < fs.mask f) :
    fs.isCanceled f = false := by
  simp [isCanceled, isMasked, h]

/-- Without a mask an observation finds what has been requested. -/
theorem isCanceled_of_mask_zero {fs : Fibers} {f : Fiber} (h : fs.mask f = 0) :
    fs.isCanceled f = fs.isRequested f := by
  simp [isCanceled, isMasked, h]

end Fibers
end Cancelable
