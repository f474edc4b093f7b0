import Cancelable.Fiber

/-!
# Host code

The closures of a program, the calls on its handles and the thunks it runs are pieces of host
code.  Such a piece sees the fibers, reads and changes the world, may request cancellations, and
ends with a value or in a panic; what it changed before a panic stays changed.

Host code gets the fibers to look at and gives back a list of requests.  So whatever it does, it
never lowers a request flag and never touches a mask.
-/

namespace Cancelable

/-- The end of a piece of host code that broke off. -/
structure Panic where
  /-- What it broke off with. -/
  text : String
  deriving DecidableEq, Repr

/-- What a piece of host code leaves behind. -/
structure Host.Result (W α : Type) where
  exit : Except Panic α
  world : W
  /-- The fibers it asked to cancel, in order. -/
  requests : List Fiber

/-- Host code over the world `W` that yields an `α`. -/
def Host (W α : Type) : Type :=
  Fibers → W → Host.Result W α

namespace Host

variable {W α β : Type}

/-- Do nothing and yield `x`. -/
def pure (x : α) : Host W α :=
  fun _ w => ⟨.ok x, w, []⟩

/-- Run `x`, and then `k` on its value, which sees the requests of `x`. -/
def bind (x : Host W α) (k : α → Host W β) : Host W β :=
  fun fs w =>
    match x fs w with
    | ⟨.error p, w, raised⟩ => ⟨.error p, w, raised⟩
    | ⟨.ok a, w, raised⟩ =>
      let r := k a (fs.cancelAll raised) w
      { r with requests := raised ++ r.requests }

instance : Monad (Host W) where
  pure := Host.pure
  bind := Host.bind

/-- The world. -/
def world : Host W W :=
  fun _ w => ⟨.ok w, w, []⟩

/-- The fibers. -/
def fibers : Host W Fibers :=
  fun fs w => ⟨.ok fs, w, []⟩

/-- Change the world and yield a value. -/
def update (f : W → α × W) : Host W α :=
  fun _ w => let (x, w) := f w; ⟨.ok x, w, []⟩

/-- Change the world. -/
def modify (f : W → W) : Host W Unit :=
  update fun w => ((), f w)

/-- Request the cancellation of a fiber. -/
def cancel (f : Fiber) : Host W Unit :=
  fun _ w => ⟨.ok (), w, [f]⟩

/-- Break off. -/
def panic (text : String) : Host W α :=
  fun _ w => ⟨.error ⟨text⟩, w, []⟩

end Host
end Cancelable
