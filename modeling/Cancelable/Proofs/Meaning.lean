import Cancelable.Proofs.Progress

/-!
# The meaning of programs

What a program does, by recursion on the program and without a stack: each construct runs the
programs inside it and goes by how they end.  The rules say nothing of turns, frames or guards.

* Every operation looks for a cancellation first, and ends canceled if it finds one.
* `map` and `bind` go on after a value only, `handleError` after a failure only, `forceR` after a
  value or a failure, and `onCancel` runs its finalizer after a cancellation only.  What a handler
  or a second program does is not covered by the construct it belongs to.
* A region runs its body one level deeper, sets the mask back, and looks for a cancellation again.
* A poll whose token has the present depth runs its program at the depth outside the region, after
  looking for a cancellation there, and sets the mask back.  Any other poll is its program.

Main statement: a program that gives a result leaves the mask depth as it found it
(`Means.mask_eq`).
-/

namespace Cancelable

variable {B : Backend} {P : Procedures}

/-! ## How programs end -/

/-- How a program ends: it gives a result, or host code breaks off. -/
inductive Exit (α : Type) where
  | gives (result : Except Interrupted α)
  | breaks (panic : Panic)

namespace Exit

variable {α β : Type}

/-- The same end of a program for other values, if it is without a value. -/
def valueless : Exit α → Option (Exit β)
  | gives (.ok _) => none
  | gives (.error i) => some (gives (.error i))
  | breaks p => some (breaks p)

def ofThunk : Except Panic α → Exit α
  | .ok x => gives (.ok x)
  | .error p => breaks p

def ofCall : Except Panic (Except Failure α) → Exit α
  | .ok result => gives (result.mapError .errored)
  | .error p => breaks p

def isFailure : Exit α → Bool
  | gives (.error (.errored _)) => true
  | _ => false

def isCanceled : Exit α → Bool
  | gives (.error .canceled) => true
  | _ => false

end Exit

/-- Report the failure of a finalizer, if it failed. -/
def Scene.reportFinalizer (sc : Scene B) (spans : List Algebra) : Except Interrupted Unit → Scene B
  | .error (.errored failure) => sc.emit (.finalizerFailed failure) spans
  | _ => sc

/-! ## Rules -/

/-- `Means bodies f around handle p sc ops e sc'` says what the program `p` does on a handle, in the
fiber `f` and inside programs of the algebras `around`: from the scene `sc` it carries out the
operations `ops`, in this order, and ends with `e`, leaving the scene `sc'`. -/
inductive Means (bodies : Bodies B P) (f : Fiber) : {a : Algebra} → {α : Type} →
    List Algebra → B.Handle a → Program B P a α → Scene B → List (Executed B P) → Exit α →
    Scene B → Prop where
  -- every operation looks for a cancellation first
  | refused {a α around handle} {p : Program B P a α} {sc : Scene B}
      (operation : p.isOperation = true) (canceled : sc.fibers.isCanceled f = true) :
      Means bodies f around handle p sc [] (.gives (.error .canceled))
        (sc.emit .cancellationObserved (a :: around))
  -- the flow of values
  | pure {a α around handle} {x : α} {sc : Scene B} :
      Means bodies f around handle (.pure (a := a) x) sc [] (.gives (.ok x)) sc
  | build {a α σ around handle} {code : Host B.World σ} {k : σ → Program B P a α} {x ops e}
      {sc sc₁ sc₂ : Scene B} (host : sc.host code = (.ok x, sc₁))
      (rest : Means @bodies f around handle (k x) sc₁ ops e sc₂) :
      Means bodies f around handle (.build code k) sc ops e sc₂
  | build_broken {a α σ around handle} {code : Host B.World σ} {k : σ → Program B P a α} {panic}
      {sc sc₁ : Scene B} (host : sc.host code = (.error panic, sc₁)) :
      Means bodies f around handle (.build code k) sc [] (.breaks panic) sc₁
  | call {a α around handle} {procedure : P a α} {ops e} {sc sc₁ : Scene B}
      (body : Means @bodies f around handle (bodies procedure) sc ops e sc₁) :
      Means bodies f around handle (.call procedure) sc ops e sc₁
  | map {a α β around handle} {p : Program B P a α} {g : α → Host B.World β} {x ops exit}
      {sc sc₁ sc₂ : Scene B} (first : Means @bodies f around handle p sc ops (.gives (.ok x)) sc₁)
      (host : sc₁.host (g x) = (exit, sc₂)) :
      Means bodies f around handle (.map p g) sc ops (.ofThunk exit) sc₂
  | map_stop {a α β around handle} {p : Program B P a α} {g : α → Host B.World β} {ops e e'}
      {sc sc₁ : Scene B} (first : Means @bodies f around handle p sc ops e sc₁)
      (stop : e.valueless = some e') :
      Means bodies f around handle (.map p g) sc ops e' sc₁
  | bind {a α β around handle} {p : Program B P a α} {k : α → Program B P a β} {x ops ops' e}
      {sc sc₁ sc₂ : Scene B} (first : Means @bodies f around handle p sc ops (.gives (.ok x)) sc₁)
      (second : Means @bodies f around handle (k x) sc₁ ops' e sc₂) :
      Means bodies f around handle (.bind p k) sc (ops ++ ops') e sc₂
  | bind_stop {a α β around handle} {p : Program B P a α} {k : α → Program B P a β} {ops e e'}
      {sc sc₁ : Scene B} (first : Means @bodies f around handle p sc ops e sc₁)
      (stop : e.valueless = some e') :
      Means bodies f around handle (.bind p k) sc ops e' sc₁
  -- leaves
  | op {a around handle} {o : Op a} {exit} {sc sc₁ : Scene B}
      (clear : sc.fibers.isCanceled f = false)
      (host : (sc.emit (.primitiveCall a o) (a :: around)).host (B.invoke handle o) =
        (exit, sc₁)) :
      Means bodies f around handle (.op o) sc [⟨handle, .op o⟩] (.ofCall exit) sc₁
  | raw {a α around handle} {code : B.Handle a → Host B.World (Except Failure α)} {exit}
      {sc sc₁ : Scene B} (clear : sc.fibers.isCanceled f = false)
      (host : sc.host (code handle) = (exit, sc₁)) :
      Means bodies f around handle (.raw code) sc [⟨handle, .raw code⟩] (.ofCall exit) sc₁
  | delay {a α around handle} {code : Host B.World α} {exit} {sc sc₁ : Scene B}
      (clear : sc.fibers.isCanceled f = false) (host : sc.host code = (exit, sc₁)) :
      Means bodies f around handle (.delay (a := a) code) sc [⟨handle, .delay code⟩]
        (.ofThunk exit) sc₁
  | suspend {a α around handle hint} {code : Host B.World (Except Failure α)} {exit}
      {sc sc₁ : Scene B} (clear : sc.fibers.isCanceled f = false)
      (host : sc.host code = (exit, sc₁)) :
      Means bodies f around handle (.suspend (a := a) hint code) sc
        [⟨handle, .suspend hint code⟩] (.ofCall exit) sc₁
  | raise {a α around handle failure} {sc : Scene B} (clear : sc.fibers.isCanceled f = false) :
      Means bodies f around handle (.raise failure : Program B P a α) sc
        [⟨handle, (.raise failure : Program B P a α)⟩] (.gives (.error (.errored failure))) sc
  | monotonic {a around handle exit} {sc sc₁ : Scene B} (clear : sc.fibers.isCanceled f = false)
      (host : sc.host B.monotonic = (exit, sc₁)) :
      Means bodies f around handle (.monotonic (a := a)) sc [⟨handle, .monotonic⟩]
        (.ofThunk exit) sc₁
  | realtime {a around handle exit} {sc sc₁ : Scene B} (clear : sc.fibers.isCanceled f = false)
      (host : sc.host B.realtime = (exit, sc₁)) :
      Means bodies f around handle (.realtime (a := a)) sc [⟨handle, .realtime⟩]
        (.ofThunk exit) sc₁
  | canceled {a around handle} {sc : Scene B} (clear : sc.fibers.isCanceled f = false)
      (found : (sc.fibers.cancel f).isCanceled f = true) :
      Means bodies f around handle (.canceled (a := a)) sc [⟨handle, .canceled⟩]
        (.gives (.error .canceled))
        (Scene.emit { sc with fibers := sc.fibers.cancel f } .cancellationObserved (a :: around))
  | canceled_later {a around handle} {sc : Scene B} (clear : sc.fibers.isCanceled f = false)
      (putOff : (sc.fibers.cancel f).isCanceled f = false) :
      Means bodies f around handle (.canceled (a := a)) sc [⟨handle, .canceled⟩]
        (.gives (.ok ())) { sc with fibers := sc.fibers.cancel f }
  -- an embedded program runs on its own handle
  | embed {a b α around handle} {inner : B.Handle b} {p : Program B P b α} {ops e}
      {sc sc₁ : Scene B} (clear : sc.fibers.isCanceled f = false)
      (body : Means @bodies f (a :: around) inner p sc ops e sc₁) :
      Means bodies f around handle (.embed (a := a) inner p) sc ops e sc₁
  -- recovery
  | handleError {a α around handle} {p : Program B P a α} {handler : Failure → Program B P a α}
      {failure ops ops' e} {sc sc₁ sc₂ : Scene B} (clear : sc.fibers.isCanceled f = false)
      (first : Means @bodies f around handle p sc ops (.gives (.error (.errored failure))) sc₁)
      (second : Means @bodies f around handle (handler failure)
        (sc₁.emit (.recovering a failure) (a :: around)) ops' e sc₂) :
      Means bodies f around handle (.handleError p handler) sc (ops ++ ops') e sc₂
  | handleError_pass {a α around handle} {p : Program B P a α}
      {handler : Failure → Program B P a α} {ops e} {sc sc₁ : Scene B}
      (clear : sc.fibers.isCanceled f = false)
      (first : Means @bodies f around handle p sc ops e sc₁) (pass : e.isFailure = false) :
      Means bodies f around handle (.handleError p handler) sc ops e sc₁
  | forceR {a α β around handle} {p : Program B P a α} {q : Program B P a β} {r ops ops' e}
      {sc sc₁ sc₂ : Scene B} (clear : sc.fibers.isCanceled f = false)
      (first : Means @bodies f around handle p sc ops (.gives r) sc₁)
      (next : (Exit.gives r).isCanceled = false)
      (second : Means @bodies f around handle q sc₁ ops' e sc₂) :
      Means bodies f around handle (.forceR p q) sc (ops ++ ops') e sc₂
  | forceR_stop {a α β around handle} {p : Program B P a α} {q : Program B P a β} {ops e e'}
      {sc sc₁ : Scene B} (clear : sc.fibers.isCanceled f = false)
      (first : Means @bodies f around handle p sc ops e sc₁) (stop : e.valueless = some e')
      (pass : e.isFailure = false) :
      Means bodies f around handle (.forceR p q) sc ops e' sc₁
  -- finalizers run one level deeper, and the program stays canceled
  | onCancel {a α around handle} {p : Program B P a α} {finalizer : Program B P a Unit}
      {r ops ops'} {sc sc₁ sc₂ : Scene B} (clear : sc.fibers.isCanceled f = false)
      (first : Means @bodies f around handle p sc ops (.gives (.error .canceled)) sc₁)
      (cleanup : Means @bodies f around handle finalizer
        (sc₁.setMask f (sc₁.fibers.mask f + 1)) ops' (.gives r) sc₂) :
      Means bodies f around handle (.onCancel p finalizer) sc (ops ++ ops')
        (.gives (.error .canceled))
        ((sc₂.setMask f (sc₁.fibers.mask f)).reportFinalizer (a :: around) r)
  | onCancel_broken {a α around handle} {p : Program B P a α} {finalizer : Program B P a Unit}
      {panic ops ops'} {sc sc₁ sc₂ : Scene B} (clear : sc.fibers.isCanceled f = false)
      (first : Means @bodies f around handle p sc ops (.gives (.error .canceled)) sc₁)
      (cleanup : Means @bodies f around handle finalizer
        (sc₁.setMask f (sc₁.fibers.mask f + 1)) ops' (.breaks panic) sc₂) :
      Means bodies f around handle (.onCancel p finalizer) sc (ops ++ ops') (.breaks panic) sc₂
  | onCancel_pass {a α around handle} {p : Program B P a α} {finalizer : Program B P a Unit}
      {ops e} {sc sc₁ : Scene B} (clear : sc.fibers.isCanceled f = false)
      (first : Means @bodies f around handle p sc ops e sc₁) (pass : e.isCanceled = false) :
      Means bodies f around handle (.onCancel p finalizer) sc ops e sc₁
  -- regions
  | region {a α around handle} {body : Token → Program B P a α} {r ops} {sc sc₁ : Scene B}
      (clear : sc.fibers.isCanceled f = false)
      (inner : Means @bodies f around handle (body ⟨sc.fibers.mask f + 1, Nat.succ_pos _⟩)
        (sc.setMask f (sc.fibers.mask f + 1)) ops (.gives r) sc₁)
      (left : (sc₁.fibers.setMask f (sc.fibers.mask f)).isCanceled f = false) :
      Means bodies f around handle (.uncancelable body) sc ops (.gives r)
        (sc₁.setMask f (sc.fibers.mask f))
  | region_canceled {a α around handle} {body : Token → Program B P a α} {r ops}
      {sc sc₁ : Scene B} (clear : sc.fibers.isCanceled f = false)
      (inner : Means @bodies f around handle (body ⟨sc.fibers.mask f + 1, Nat.succ_pos _⟩)
        (sc.setMask f (sc.fibers.mask f + 1)) ops (.gives r) sc₁)
      (left : (sc₁.fibers.setMask f (sc.fibers.mask f)).isCanceled f = true) :
      Means bodies f around handle (.uncancelable body) sc ops (.gives (.error .canceled))
        ((sc₁.setMask f (sc.fibers.mask f)).emit .cancellationObserved (a :: around))
  | region_broken {a α around handle} {body : Token → Program B P a α} {panic ops}
      {sc sc₁ : Scene B} (clear : sc.fibers.isCanceled f = false)
      (inner : Means @bodies f around handle (body ⟨sc.fibers.mask f + 1, Nat.succ_pos _⟩)
        (sc.setMask f (sc.fibers.mask f + 1)) ops (.breaks panic) sc₁) :
      Means bodies f around handle (.uncancelable body) sc ops (.breaks panic) sc₁
  -- polls
  | poll {a α around handle} {token : Token} {p : Program B P a α} {r ops} {sc sc₁ : Scene B}
      (clear : sc.fibers.isCanceled f = false) (own : sc.fibers.mask f = token.depth)
      (lowered : (sc.fibers.setMask f (sc.fibers.mask f - 1)).isCanceled f = false)
      (inner : Means @bodies f around handle p (sc.setMask f (sc.fibers.mask f - 1)) ops (.gives r)
        sc₁) :
      Means bodies f around handle (.poll token p) sc ops (.gives r)
        (sc₁.setMask f (sc.fibers.mask f))
  | poll_canceled {a α around handle} {token : Token} {p : Program B P a α} {sc : Scene B}
      (clear : sc.fibers.isCanceled f = false) (own : sc.fibers.mask f = token.depth)
      (lowered : (sc.fibers.setMask f (sc.fibers.mask f - 1)).isCanceled f = true) :
      Means bodies f around handle (.poll token p) sc [] (.gives (.error .canceled))
        (((sc.setMask f (sc.fibers.mask f - 1)).emit .cancellationObserved (a :: around)).setMask f
          (sc.fibers.mask f))
  | poll_broken {a α around handle} {token : Token} {p : Program B P a α} {panic ops}
      {sc sc₁ : Scene B} (clear : sc.fibers.isCanceled f = false)
      (own : sc.fibers.mask f = token.depth)
      (lowered : (sc.fibers.setMask f (sc.fibers.mask f - 1)).isCanceled f = false)
      (inner : Means @bodies f around handle p (sc.setMask f (sc.fibers.mask f - 1)) ops
        (.breaks panic) sc₁) :
      Means bodies f around handle (.poll token p) sc ops (.breaks panic) sc₁
  | poll_inert {a α around handle} {token : Token} {p : Program B P a α} {ops e}
      {sc sc₁ : Scene B} (clear : sc.fibers.isCanceled f = false)
      (stale : sc.fibers.mask f ≠ token.depth)
      (body : Means @bodies f around handle p sc ops e sc₁) :
      Means bodies f around handle (.poll token p) sc ops e sc₁

/-! ## The mask -/

namespace Exit

variable {α β : Type}

/-- An end that stands for another one has a result only if that one has. -/
theorem gives_of_valueless {e : Exit α} {e' : Exit β} {r : Except Interrupted β}
    (h : e.valueless = some e') (gives : e' = .gives r) : ∃ i, e = .gives (.error i) := by
  subst gives
  cases e with
  | breaks panic => cases h
  | gives result =>
    cases result with
    | ok x => cases h
    | error i => exact ⟨i, rfl⟩

end Exit

@[simp] theorem Scene.fibers_reportFinalizer (sc : Scene B) (spans : List Algebra)
    (r : Except Interrupted Unit) : (sc.reportFinalizer spans r).fibers = sc.fibers := by
  rcases r with (failure | _) | _ <;> rfl

/-- A program that gives a result leaves the mask of its fiber as it found it. -/
theorem Means.mask_eq {bodies : Bodies B P} {f : Fiber} {a : Algebra} {α : Type}
    {around : List Algebra} {handle : B.Handle a} {p : Program B P a α} {sc sc' : Scene B}
    {ops : List (Executed B P)} {e : Exit α} (h : Means bodies f around handle p sc ops e sc')
    {r : Except Interrupted α} (gives : e = .gives r) :
    sc'.fibers.mask f = sc.fibers.mask f := by
  -- on the derivation; programs inside that break off or go on are never the whole program's end
  induction h with
  | refused _ _ => rfl
  | pure => rfl
  | build host _ ih => rw [ih gives, Scene.mask_of_host host]
  | build_broken _ => cases gives
  | call _ ih => exact ih gives
  | map _ host ih => rw [Scene.mask_of_host host, ih rfl]
  | map_stop _ stop ih =>
    -- the end of the program inside has no value, but a result, as has the whole
    rcases Exit.gives_of_valueless stop gives with ⟨i, inner⟩
    exact ih inner
  | bind _ _ ih₁ ih₂ => rw [ih₂ gives, ih₁ rfl]
  | bind_stop _ stop ih =>
    rcases Exit.gives_of_valueless stop gives with ⟨i, inner⟩
    exact ih inner
  | op _ host => exact Scene.mask_of_host host _
  | raw _ host => exact Scene.mask_of_host host _
  | delay _ host => exact Scene.mask_of_host host _
  | suspend _ host => exact Scene.mask_of_host host _
  | raise _ => rfl
  | monotonic _ host => exact Scene.mask_of_host host _
  | realtime _ host => exact Scene.mask_of_host host _
  | canceled _ _ => rfl
  | canceled_later _ _ => rfl
  | embed _ _ ih => exact ih gives
  | handleError _ _ _ ih₁ ih₂ => rw [ih₂ gives, Scene.fibers_emit, ih₁ rfl]
  | handleError_pass _ _ _ ih => exact ih gives
  | forceR _ _ _ _ ih₁ ih₂ => rw [ih₂ gives, ih₁ rfl]
  | forceR_stop _ _ stop _ ih =>
    rcases Exit.gives_of_valueless stop gives with ⟨i, inner⟩
    exact ih inner
  | onCancel _ _ _ ih₁ _ => simp [ih₁ rfl]
  | onCancel_broken _ _ _ _ _ => cases gives
  | onCancel_pass _ _ _ ih => exact ih gives
  -- regions and polls set the mask back themselves
  | region _ _ _ _ => simp
  | region_canceled _ _ _ _ => simp
  | region_broken _ _ _ => cases gives
  | poll _ _ _ _ _ => simp
  | poll_canceled _ _ _ => simp
  | poll_broken _ _ _ _ _ => cases gives
  | poll_inert _ _ _ ih => exact ih gives

end Cancelable
