import RemoteInput.Event.Basic
import RemoteInput.Decimal.Text
import RemoteInput.Json.Quoted

/-!
# Writing events

An event is written as one compact JSON object and a line feed.  The members
stand in a fixed order: `event_type`, `timestamp`, and then those of the kind of
event.  Modifiers are written once each, in canonical order.

A number that is not finite has no JSON form, so an event that holds one is not
written at all.
-/

namespace RemoteInput

/-- Why an event cannot be written. -/
inductive EncodeError where
  | nonFinite
  deriving DecidableEq

/-- The wording of an encode error. -/
def EncodeError.message : EncodeError → String
  | .nonFinite => "non-finite number in event"

namespace Encode

/-- A number. -/
def number (x : Float) : List Char := Decimal.writeFloat .message x

/-- A string, in quotes. -/
def string (s : String) : List Char := Json.Quoted.write s.toList

/-- Pieces with commas between them. -/
def separated : List (List Char) → List Char
  | [] => []
  | [p] => p
  | p :: ps => p ++ ',' :: separated ps

/-- An array of written items. -/
def array (items : List (List Char)) : List Char := '[' :: separated items ++ [']']

/-- A member of a written value. -/
def member (name : String) (value : List Char) : List Char := string name ++ ':' :: value

/-- An object of written members. -/
def object (members : List (List Char)) : List Char := '{' :: separated members ++ ['}']

/-- The members that belong to an input. -/
def members : Input → List (List Char)
  | .keyboard key action modifiers =>
    [ member "key" (string key),
      member "action" (string (wireName action)),
      member "modifiers" (array (modifiers.toList.map fun m => string (wireName m))) ]
  | .trackpad action dx dy =>
    [ member "action" (string (wireName action)),
      member "dx" (number dx),
      member "dy" (number dy) ]
  | .system command => [member "command" (string (wireName command))]

end Encode

/-- The line that stands for an event whose numbers are finite. -/
def Event.line (event : Event) : List Char :=
  Encode.object
    (Encode.member "event_type" (Encode.string (wireName event.kind)) ::
      Encode.member "timestamp" (Encode.number event.timestamp) ::
      Encode.members event.input) ++ ['\n']

/-- Writes an event as a line. -/
def Event.encodeLine (event : Event) : Except EncodeError String :=
  if event.isFinite then .ok (String.ofList event.line) else .error .nonFinite

end RemoteInput
