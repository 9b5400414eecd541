import RemoteInput.Event.Modifiers

/-!
# Input events

An event is an input with the time at which it happened.  The input is what is
injected into the machine.  The time is carried along and decides nothing.
-/

namespace RemoteInput

/-- Something that can be injected into the machine. -/
inductive Input where
  /-- A key goes down or up while modifiers are held. -/
  | keyboard (key : String) (action : KeyAction) (modifiers : Modifiers)
  /-- The pointer moves, clicks or scrolls by a distance. -/
  | trackpad (action : TrackpadAction) (dx dy : Float)
  /-- The machine is asked for something. -/
  | system (command : SystemCommand)
  deriving DecidableEq

/-- What an input is about. -/
def Input.kind : Input → EventKind
  | .keyboard .. => .keyboard
  | .trackpad .. => .trackpad
  | .system .. => .system

/-- An input and the time at which it happened, in seconds. -/
structure Event where
  /-- The time. -/
  timestamp : Float
  /-- The input. -/
  input : Input
  deriving DecidableEq

/-- What an event is about. -/
def Event.kind (event : Event) : EventKind := event.input.kind

/-- Whether every number of an input is finite. -/
def Input.isFinite : Input → Bool
  | .trackpad _ dx dy => dx.isFinite && dy.isFinite
  | .keyboard .. | .system .. => true

/-- Whether every number of an event is finite. -/
def Event.isFinite (event : Event) : Bool := event.timestamp.isFinite && event.input.isFinite

/-- Equality of inputs with their numbers compared as numbers: the two zeros are equal and what
is not a number equals nothing. -/
def Input.agrees : Input → Input → Bool
  | .trackpad a dx dy, .trackpad a' dx' dy' => a == a' && dx == dx' && dy == dy'
  | i, j => i == j

/-- Equality of events with their numbers compared as numbers. -/
def Event.agrees (e f : Event) : Bool := e.timestamp == f.timestamp && e.input.agrees f.input

end RemoteInput
