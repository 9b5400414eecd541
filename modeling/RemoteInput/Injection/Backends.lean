import RemoteInput.Injection.Backend
import RemoteInput.Keyboard

/-!
# Three backends

The recording backend accepts every input and remembers it.  The failing one
refuses every input and remembers nothing.  The logging one reports every input
and injects none.  It still looks up the code of a key, so it refuses the keys
that a real machine would refuse.
-/

namespace RemoteInput.Injection

/-- Remembers every input, the first one first. -/
def recording : Backend (List Input) where
  inject seen input := { state := seen ++ [input], result := .ok () }

/-- Refuses every input. -/
def failing : Backend (List Input) where
  inject seen _ := { state := seen, result := .error (.platform "mock failure") }

/-- The names of a set of modifiers, quoted and in brackets. -/
def modifierText (set : Modifiers) : String :=
  "[" ++ ", ".intercalate (set.toList.map fun m => "\"" ++ wireName m ++ "\"") ++ "]"

/-- The record of an input, unless it is of a key without a code. -/
def record : Input → Except InjectionError Log.Record
  | .keyboard key action modifiers =>
    match Keyboard.code? key with
    | none => .error (.unsupportedKey key)
    | some code => .ok
      { level := .info
        message := "keyboard event"
        fields :=
          [ ("keycode", .count code.toNat),
            ("action", .text (wireName action)),
            ("modifiers", .text (modifierText modifiers)) ] }
  | .trackpad action dx dy => .ok
    { level := .info
      message := "trackpad event"
      fields := [("action", .text (wireName action)), ("dx", .real dx), ("dy", .real dy)] }
  | .system command => .ok
    { level := .info
      message := "system command"
      fields := [("command", .text (wireName command))] }

/-- Reports every input. -/
def logging : Backend Unit where
  inject _ input :=
    match record input with
    | .ok r => { state := (), result := .ok (), log := [r] }
    | .error e => { state := (), result := .error e }

/-! ## Tests -/

example : modifierText (.ofList [.alt, .cmd]) = "[\"CMD\", \"ALT\"]" := by decide
example : modifierText ∅ = "[]" := by decide

end RemoteInput.Injection
