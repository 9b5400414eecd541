import RemoteInput.Injection.Backend

/-!
# Use cases

A backend is shared by everyone who dispatches events.  Its state lies in a
store, under an address of its own, and a use case is a handle to it: what the
backend does and the address of its state.  A clone of a use case is another
handle to the same state.  So what is dispatched through one handle is seen
through all of them.
-/

namespace RemoteInput

/-- The states of the backends that are shared, by their addresses. -/
abbrev Store (σ : Type) := List σ

/-- What is said to whoever dispatches an event, and what is reported. -/
structure Answer where
  /-- Whether the input was injected. -/
  result : Except InjectionError Unit
  /-- What the backend reported. -/
  log : List Log.Record

/-- A handle to a shared backend. -/
structure UseCase (σ : Type) where
  /-- What the backend does. -/
  backend : Injection.Backend σ
  /-- The address of its state. -/
  address : Nat

namespace UseCase

variable {σ : Type}

/-- Shares a backend in a first state.  Gives the first handle to it. -/
def new (backend : Injection.Backend σ) (start : σ) (store : Store σ) : UseCase σ × Store σ :=
  (⟨backend, store.length⟩, store ++ [start])

/-- Another handle to the same backend. -/
def clone (u : UseCase σ) : UseCase σ := ⟨u.backend, u.address⟩

/-- Dispatches an event through a handle, if its state is in the store. -/
def dispatch (u : UseCase σ) (store : Store σ) (event : Event) : Option (Answer × Store σ) := do
  let state ← store[u.address]?
  let outcome := u.backend.dispatch state event
  return (⟨outcome.result, outcome.log⟩, store.set u.address outcome.state)

/-- Dispatches events in order, each through a handle of its own. -/
def dispatchAll (store : Store σ) : List (UseCase σ × Event) → Option (List Answer × Store σ)
  | [] => some ([], store)
  | (u, event) :: steps => do
    let (answer, store) ← u.dispatch store event
    let (answers, store) ← dispatchAll store steps
    return (answer :: answers, store)

end UseCase

end RemoteInput
