import RemoteInput.Event.Basic
import RemoteInput.Log

/-!
# Injection backends

A backend is what injects inputs into the machine.  It may have a state, it may
refuse an input, and it may report what it does.  So it is a function from a
state and an input to the next state, the result and the records.
-/

namespace RemoteInput

/-- Why an input was not injected. -/
inductive InjectionError where
  /-- The key has no code. -/
  | unsupportedKey (key : String)
  /-- The machine refused. -/
  | platform (reason : String)
  /-- The machine has no such backend. -/
  | unavailable
  deriving DecidableEq

/-- The wording of an injection error.  It does not repeat the key. -/
def InjectionError.message : InjectionError → String
  | .unsupportedKey _ => "unsupported key"
  | .platform reason => s!"platform error: {reason}"
  | .unavailable => "injection backend unavailable"

namespace Injection

/-- What came of one input. -/
structure Outcome (σ : Type) where
  /-- The state of the backend afterwards. -/
  state : σ
  /-- Whether the input was injected. -/
  result : Except InjectionError Unit
  /-- What the backend reported. -/
  log : List Log.Record := []

/-- A backend with states in `σ`. -/
structure Backend (σ : Type) where
  /-- Injects one input. -/
  inject : σ → Input → Outcome σ

/-- Injects the input of an event.  The time of the event plays no part. -/
def Backend.dispatch {σ : Type} (backend : Backend σ) (state : σ) (event : Event) : Outcome σ :=
  backend.inject state event.input

end Injection

end RemoteInput
