import TokenForge.Error
import TokenForge.Log.Event

/-!
# Computations that report what they do

A computation ends in a value or in an error, and on the way it emits events. An error ends it, but
the events before the error stay.

* `Logged` — the events and the result;
* `Logged.emit` — one event, `Logged.of` — a computation without events.
-/

namespace TokenForge

/-- **A computation with what it reported.** -/
structure Logged (α : Type) where
  events : List Log.Event
  /-- The value, or the error that ended the computation. -/
  result : Except Error α

namespace Logged

variable {α β : Type}

protected def pure (a : α) : Logged α := { events := [], result := .ok a }

/-- A computation without events. -/
def of (r : Except Error α) : Logged α := { events := [], result := r }

def emit (e : Log.Event) : Logged Unit := { events := [e], result := .ok () }

/-- **One computation after another.** The second is not begun if the first ends in an error. -/
protected def bind (x : Logged α) (f : α → Logged β) : Logged β :=
  match x.result with
  | .error e => { events := x.events, result := .error e }
  | .ok a => { events := x.events ++ (f a).events, result := (f a).result }

instance : Monad Logged where
  pure := Logged.pure
  bind := Logged.bind

@[simp] theorem events_pure (a : α) : (pure a : Logged α).events = [] := rfl

@[simp] theorem result_pure (a : α) : (pure a : Logged α).result = .ok a := rfl

@[simp] theorem events_of (r : Except Error α) : (of r).events = [] := rfl

@[simp] theorem result_of (r : Except Error α) : (of r).result = r := rfl

@[simp] theorem result_emit (e : Log.Event) : (emit e).result = .ok () := rfl

@[simp] theorem events_emit (e : Log.Event) : (emit e).events = [e] := rfl

/-- **The result is that of the two results in a row**: events decide nothing. -/
theorem result_bind (x : Logged α) (f : α → Logged β) :
    (x >>= f).result = x.result.bind fun a => (f a).result := by
  change (Logged.bind x f).result = _
  unfold Logged.bind
  cases x.result <;> rfl

/-- **The events are those of both in a row**, as far as the second is begun. -/
theorem events_bind (x : Logged α) (f : α → Logged β) :
    (x >>= f).events = x.events ++ match x.result with
      | .error _ => []
      | .ok a => (f a).events := by
  change (Logged.bind x f).events = _
  unfold Logged.bind
  cases x.result with
  | error e => exact (List.append_nil x.events).symm
  | ok a => rfl

end Logged

end TokenForge
