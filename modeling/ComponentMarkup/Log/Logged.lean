/-
  Computations that log.

  * `Logged α`: a value, and the events on the way to it in order.
  * `log`: an event. In sequence, the events of the first computation come first
    (`events_bind`, `value_bind`), and the laws of monads hold.
-/
import ComponentMarkup.Log.Event

namespace ComponentMarkup

universe u

/-- A value with the events on the way to it. -/
structure Logged (α : Type u) where
  value : α
  events : List Event

namespace Logged

variable {α β : Type u}

instance : Monad Logged where
  pure a := ⟨a, []⟩
  bind x f := ⟨(f x.value).value, x.events ++ (f x.value).events⟩

@[simp] theorem value_pure (a : α) : (pure a : Logged α).value = a := rfl

@[simp] theorem events_pure (a : α) : (pure a : Logged α).events = [] := rfl

@[simp] theorem value_bind (x : Logged α) (f : α → Logged β) :
    (x >>= f).value = (f x.value).value := rfl

@[simp] theorem events_bind (x : Logged α) (f : α → Logged β) :
    (x >>= f).events = x.events ++ (f x.value).events := rfl

theorem eq_of {x y : Logged α} (hv : x.value = y.value) (he : x.events = y.events) : x = y := by
  cases x; cases y; cases hv; cases he; rfl

instance : LawfulMonad Logged := LawfulMonad.mk' Logged
  (fun x => eq_of rfl (List.append_nil _))
  (fun _ _ => eq_of rfl (List.nil_append _))
  (fun _ _ _ => eq_of rfl (List.append_assoc _ _ _))

/-- The records of the events that are logged, up to a level. -/
def records (limit : Level) (x : Logged α) : List Record :=
  x.events.filterMap Event.record? |>.filter fun record => limit.shownAt record.level

end Logged

/-- One event. -/
def log (event : Event) : Logged PUnit := ⟨⟨⟩, [event]⟩

@[simp] theorem events_log (event : Event) : (log event).events = [event] := rfl

/-- Logs one event after another. -/
def logAll : List Event → Logged PUnit
  | [] => pure ⟨⟩
  | event :: events => do
    log event
    logAll events

@[simp] theorem events_logAll (events : List Event) : (logAll events).events = events := by
  induction events with
  | nil => rfl
  | cons event events ih => simp [logAll, ih]

end ComponentMarkup
