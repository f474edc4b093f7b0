import Cancelable.Program
import Cancelable.Trace

/-!
# Scenes

Everything that is shared by the programs in progress: the fibers, the world of the backend, and
the events reported so far.  A program in progress holds its own place only; what it changes is
here.
-/

namespace Cancelable

/-- What programs in progress share. -/
structure Scene (B : Backend) where
  fibers : Fibers
  world : B.World
  /-- The events so far, latest first. -/
  events : List Event := []

namespace Scene

variable {B : Backend} {α : Type}

/-- Run a piece of host code. -/
def host (sc : Scene B) (code : Host B.World α) : Except Panic α × Scene B :=
  let r := code sc.fibers sc.world
  (r.exit, { sc with fibers := sc.fibers.cancelAll r.requests, world := r.world })

/-- Report an event inside the given programs. -/
def emit (sc : Scene B) (happening : Happening) (spans : List Algebra) : Scene B :=
  { sc with events := ⟨happening, spans⟩ :: sc.events }

/-- Set the mask depth of a fiber. -/
def setMask (sc : Scene B) (f : Fiber) (depth : Nat) : Scene B :=
  { sc with fibers := sc.fibers.setMask f depth }

/-- Look for a cancellation of the fiber, and report one that is found. -/
def observe (sc : Scene B) (f : Fiber) (spans : List Algebra) : Except Interrupted Unit × Scene B :=
  if sc.fibers.isCanceled f then (.error .canceled, sc.emit .cancellationObserved spans)
  else (.ok (), sc)

/-! ## What each does to the fibers -/

@[simp] theorem fibers_emit (sc : Scene B) (h : Happening) (spans : List Algebra) :
    (sc.emit h spans).fibers = sc.fibers := rfl

@[simp] theorem fibers_setMask (sc : Scene B) (f : Fiber) (n : Nat) :
    (sc.setMask f n).fibers = sc.fibers.setMask f n := rfl

/-- Host code touches no mask. -/
theorem mask_of_host {sc sc' : Scene B} {code : Host B.World α} {exit : Except Panic α}
    (h : sc.host code = (exit, sc')) (f : Fiber) : sc'.fibers.mask f = sc.fibers.mask f := by
  cases h
  exact Fibers.mask_cancelAll _ _ f

/-- Host code withdraws no request. -/
theorem isRequested_of_host {sc sc' : Scene B} {code : Host B.World α} {exit : Except Panic α}
    (h : sc.host code = (exit, sc')) {f : Fiber} (r : sc.fibers.isRequested f = true) :
    sc'.fibers.isRequested f = true := by
  cases h
  exact Fibers.isRequested_cancelAll _ _ r

/-- Of two depths set one after the other the later one counts. -/
@[simp] theorem setMask_setMask (sc : Scene B) (f : Fiber) (m n : Nat) :
    (sc.setMask f m).setMask f n = sc.setMask f n := by
  simp [setMask]

/-- Setting a depth to what it is changes nothing. -/
theorem setMask_eq_self {sc : Scene B} {f : Fiber} {n : Nat} (h : sc.fibers.mask f = n) :
    sc.setMask f n = sc := by
  rw [setMask, ← h, Fibers.setMask_mask]

end Scene
end Cancelable
