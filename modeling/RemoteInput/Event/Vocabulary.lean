/-!
# The words of the wire format

Five closed sets of words occur in a message.  Each has a fixed order and one
wire name per word.  A name is read by looking it up among the wire names, so
the comparison is exact: case counts and nothing is trimmed.
-/

namespace RemoteInput

/-- A closed set of words with a wire name for each. -/
class Vocabulary (α : Type) where
  /-- Every word, in canonical order. -/
  all : List α
  /-- The name of a word in a message. -/
  wireName : α → String

export Vocabulary (wireName)

/-- The word with the given wire name. -/
def Vocabulary.ofWireName? (α : Type) [Vocabulary α] (name : String) : Option α :=
  (Vocabulary.all : List α).find? fun word => wireName word == name

/-! ## The five vocabularies -/

/-- What a message is about. -/
inductive EventKind where
  | keyboard
  | trackpad
  | system
  deriving DecidableEq

instance : Vocabulary EventKind where
  all := [.keyboard, .trackpad, .system]
  wireName
    | .keyboard => "KEYBOARD"
    | .trackpad => "TRACKPAD"
    | .system => "SYSTEM"

/-- What happened to a key. -/
inductive KeyAction where
  | down
  | up
  deriving DecidableEq

instance : Vocabulary KeyAction where
  all := [.down, .up]
  wireName
    | .down => "DOWN"
    | .up => "UP"

/-- A key held while another is pressed. -/
inductive Modifier where
  | cmd
  | shift
  | ctrl
  | alt
  deriving DecidableEq

instance : Vocabulary Modifier where
  all := [.cmd, .shift, .ctrl, .alt]
  wireName
    | .cmd => "CMD"
    | .shift => "SHIFT"
    | .ctrl => "CTRL"
    | .alt => "ALT"

/-- What happened on the trackpad. -/
inductive TrackpadAction where
  | move
  | clickDown
  | clickUp
  | scroll
  deriving DecidableEq

instance : Vocabulary TrackpadAction where
  all := [.move, .clickDown, .clickUp, .scroll]
  wireName
    | .move => "MOVE"
    | .clickDown => "CLICK_DOWN"
    | .clickUp => "CLICK_UP"
    | .scroll => "SCROLL"

/-- What the machine is asked to do. -/
inductive SystemCommand where
  | lockScreen
  | sleep
  | showPowerDialog
  deriving DecidableEq

instance : Vocabulary SystemCommand where
  all := [.lockScreen, .sleep, .showPowerDialog]
  wireName
    | .lockScreen => "LOCK_SCREEN"
    | .sleep => "SLEEP"
    | .showPowerDialog => "SHOW_POWER_DIALOG"

/-! ## Tests -/

example : Vocabulary.ofWireName? TrackpadAction "CLICK_UP" = some .clickUp := by decide
example : Vocabulary.ofWireName? KeyAction "down" = none := by decide
example : Vocabulary.ofWireName? SystemCommand "SLEEP " = none := by decide

end RemoteInput
