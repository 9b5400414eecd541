import RemoteInput.Injection.Backend
import RemoteInput.Keyboard

/-!
# Strokes

A machine is asked for strokes of its keys.  A keyboard input is one stroke: the
key of that name goes down or up while the flags of the modifiers are held.  Two
commands are strokes as well.  The screen is locked by a shortcut, and the power
dialog is opened by the key for it, which has no name.  No other input touches
the keys.

`strokes` gives what a machine is asked for, in order.  A machine that refuses a
stroke is not asked for the ones after it.
-/

namespace RemoteInput.Injection

/-- A key that goes down or up. -/
structure Stroke where
  /-- The code of the key. -/
  code : UInt16
  /-- Whether it goes down. -/
  down : Bool
  /-- The flags of the modifiers that are held. -/
  flags : UInt64
  deriving DecidableEq

/-- A key that goes down and up again. -/
def tap (code : UInt16) (flags : UInt64) : List Stroke := [⟨code, true, flags⟩, ⟨code, false, flags⟩]

/-- The code of the key with a name, if there is one. -/
def keyOf (name : String) : Except InjectionError UInt16 :=
  match Keyboard.code? name with
  | none => .error (.unsupportedKey name)
  | some code => .ok code

/-- The strokes of an input, unless it is of a key without a code. -/
def strokes : Input → Except InjectionError (List Stroke)
  | .keyboard key action modifiers => do
    let code ← keyOf key
    return [⟨code, action == .down, Keyboard.flags modifiers⟩]
  | .trackpad .. => .ok []
  | .system .lockScreen => do
    let code ← keyOf "Q"
    return tap code (Keyboard.flag .ctrl ||| Keyboard.flag .cmd)
  | .system .sleep => .ok []
  | .system .showPowerDialog => .ok (tap Keyboard.powerKey 0)

/-- Whether an input opens the power dialog: one of its strokes is of the key for it. -/
def OpensPowerDialog (input : Input) : Prop :=
  ∃ all, strokes input = .ok all ∧ ∃ stroke ∈ all, stroke.code = Keyboard.powerKey

end RemoteInput.Injection
