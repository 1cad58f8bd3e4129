import Stencil.Failure
import Stencil.Log.Event

/-!
# Logged steps

A step of a run that notes events on its way and then has a result or fails. What comes after a failure
neither happens nor is noted.

Main statement: the result of steps in a row is the result without the log (`result_bind`).
-/

namespace Stencil

/-- A step with the events it notes. -/
structure Logged (α : Type) where
  events : List Log.Event
  result : Except Failure α

namespace Logged

variable {α β : Type}

/-- Does one step after another. -/
def andThen (x : Logged α) (f : α → Logged β) : Logged β :=
  match x.result with
  | .error failure => ⟨x.events, .error failure⟩
  | .ok a => ⟨x.events ++ (f a).events, (f a).result⟩

instance : Monad Logged where
  pure a := ⟨[], .ok a⟩
  bind := andThen

def note (events : List Log.Event) : Logged Unit := ⟨events, .ok ()⟩

/-- A step that notes nothing. -/
def ofResult (result : Except Failure α) : Logged α := ⟨[], result⟩

@[simp] theorem result_pure (a : α) : (pure a : Logged α).result = .ok a := rfl

@[simp] theorem result_note (events : List Log.Event) : (note events).result = .ok () := rfl

@[simp] theorem result_ofResult (result : Except Failure α) : (ofResult result).result = result := rfl

/-- **The log has no part in the result.** -/
@[simp] theorem result_bind (x : Logged α) (f : α → Logged β) :
    (x >>= f).result = x.result.bind fun a => (f a).result := by
  show (andThen x f).result = _
  unfold andThen
  cases x.result <;> rfl

end Logged

end Stencil
