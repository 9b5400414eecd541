import RemoteInput.Event.Basic
import RemoteInput.Json.Reader

/-!
# Reading events

A message is read in two steps.  Its bytes are read as a JSON value, and the
value is checked member by member.  The checks have a fixed order and the first
one that fails is the error.  Only the members that the kind of event calls for
are looked at, so any other member may hold anything.

A message may leave out its `timestamp`.  Then the event happens at the time of
receipt, and the result says that it was used.  A `null` is a value like any
other, so it does not count as left out.
-/

namespace RemoteInput

/-! ## Errors -/

/-- What a member should have been. -/
inductive Expected where
  | string
  | strings
  deriving DecidableEq

/-- The wording of an expectation. -/
def Expected.description : Expected → String
  | .string => "a string"
  | .strings => "an array of strings"

/-- Why a JSON value is no event. -/
inductive DecodeError where
  | notAnObject
  | missingField (field : String)
  | unknownEventType (value : String)
  | unknownMember (field value : String)
  | notNumeric (field : String)
  | wrongType (field : String) (expected : Expected)
  deriving DecidableEq

/-- The wording of a decode error.  It never repeats text of the sender. -/
def DecodeError.message : DecodeError → String
  | .notAnObject => "message is not a JSON object"
  | .missingField field => s!"missing required field `{field}`"
  | .unknownEventType _ => "unknown event_type"
  | .unknownMember field _ => s!"field `{field}` has an unknown value"
  | .notNumeric field => s!"field `{field}` must be a number"
  | .wrongType field expected => s!"field `{field}` must be {expected.description}"

/-- Why a line is no event. -/
inductive MessageError where
  /-- The line is no JSON value. -/
  | malformedMessage (error : Json.SyntaxError)
  /-- The value is no event. -/
  | malformedEvent (error : DecodeError)
  deriving DecidableEq

/-- The wording of a message error. -/
def MessageError.message : MessageError → String
  | .malformedMessage e => s!"malformed message: {e.message}"
  | .malformedEvent e => s!"malformed event: {e.message}"

/-! ## Members -/

namespace Decode

/-- A member that has to be a string. -/
def string (members : Json.Members) (field : String) : Except DecodeError String :=
  match members.get? field with
  | none => .error (.missingField field)
  | some (.string text) => .ok text
  | some _ => .error (.wrongType field .string)

/-- A member that has to be a word of a vocabulary. -/
def word (α : Type) [Vocabulary α] (members : Json.Members) (field : String) :
    Except DecodeError α := do
  let name ← string members field
  match Vocabulary.ofWireName? α name with
  | some word => .ok word
  | none => .error (.unknownMember field name)

/-- A member that is a distance, zero if it is left out. -/
def distance (members : Json.Members) (field : String) : Except DecodeError Float :=
  match members.get? field with
  | none => .ok 0
  | some (.number x) => .ok x
  | some _ => .error (.notNumeric field)

/-- Adds the modifiers that the items of an array name. -/
def insertModifiers : Modifiers → List Json → Except DecodeError Modifiers
  | set, [] => .ok set
  | set, .string name :: items =>
    match Vocabulary.ofWireName? Modifier name with
    | some m => insertModifiers (set.insert m) items
    | none => .error (.unknownMember "modifiers" name)
  | _, _ :: _ => .error (.wrongType "modifiers" .strings)

/-- The modifiers of a message, none if they are left out. -/
def modifiers (members : Json.Members) : Except DecodeError Modifiers :=
  match members.get? "modifiers" with
  | none => .ok ∅
  | some (.array items) => insertModifiers ∅ items
  | some _ => .error (.wrongType "modifiers" .strings)

/-- What the message is about. -/
def kind (members : Json.Members) : Except DecodeError EventKind := do
  let name ← string members "event_type"
  match Vocabulary.ofWireName? EventKind name with
  | some kind => .ok kind
  | none => .error (.unknownEventType name)

/-- The input of a message, read from the members that its kind calls for. -/
def input (members : Json.Members) : EventKind → Except DecodeError Input
  | .keyboard => do
    let key ← string members "key"
    let action ← word KeyAction members "action"
    let modifiers ← modifiers members
    return .keyboard key action modifiers
  | .trackpad => do
    let action ← word TrackpadAction members "action"
    let dx ← distance members "dx"
    let dy ← distance members "dy"
    return .trackpad action dx dy
  | .system => do
    let command ← word SystemCommand members "command"
    return .system command

end Decode

/-! ## Messages -/

/-- The outcome of reading a message. -/
structure Decoded (ε : Type) where
  /-- Whether the time of receipt stood in for a timestamp that was left out. -/
  defaulted : Bool
  /-- The event, or why there is none. -/
  result : Except ε Event

/-- Reads a JSON value that was received at a time as an event. -/
def Event.decode (value : Json) (receivedAt : Float) : Decoded DecodeError :=
  match value with
  | .object members =>
    match Decode.kind members with
    | .error e => ⟨false, .error e⟩
    | .ok kind =>
      match Json.Members.get? members "timestamp" with
      | none => ⟨true, (Decode.input members kind).map (⟨receivedAt, ·⟩)⟩
      | some (.number time) => ⟨false, (Decode.input members kind).map (⟨time, ·⟩)⟩
      | some _ => ⟨false, .error (.notNumeric "timestamp")⟩
  | _ => ⟨false, .error .notAnObject⟩

/-- Reads a line that was received at a time as an event. -/
def Event.decodeLine (line : Bytes) (receivedAt : Float) : Decoded MessageError :=
  match Json.read line with
  | .error e => ⟨false, .error (.malformedMessage e)⟩
  | .ok value =>
    let decoded := Event.decode value receivedAt
    ⟨decoded.defaulted, decoded.result.mapError .malformedEvent⟩

end RemoteInput
