import RemoteInput.Event.Modifiers
import RemoteInput.Text.Ascii

/-!
# Keys and their codes

A message names a key by a word.  The machine knows it by the code of its place
on an ANSI keyboard.  `Keyboard.table` lists every key once with all its names,
so the names in one row mean the same key and names in two rows do not.

A name is looked up after its ASCII letters were put in upper case.  Letters
outside ASCII are left as they are, and no name in the table has one.

The key that opens the power dialog has a code but no name.
-/

namespace RemoteInput.Keyboard

/-- A key with the names it may have in a message. -/
structure Key where
  /-- The code of the key. -/
  code : UInt16
  /-- Its names, in upper case. -/
  names : List String

/-- The keys that can be named. -/
def table : List Key :=
  -- letters
  [ ⟨0x00, ["A"]⟩, ⟨0x01, ["S"]⟩, ⟨0x02, ["D"]⟩, ⟨0x03, ["F"]⟩, ⟨0x04, ["H"]⟩, ⟨0x05, ["G"]⟩,
    ⟨0x06, ["Z"]⟩, ⟨0x07, ["X"]⟩, ⟨0x08, ["C"]⟩, ⟨0x09, ["V"]⟩, ⟨0x0B, ["B"]⟩, ⟨0x0C, ["Q"]⟩,
    ⟨0x0D, ["W"]⟩, ⟨0x0E, ["E"]⟩, ⟨0x0F, ["R"]⟩, ⟨0x10, ["Y"]⟩, ⟨0x11, ["T"]⟩, ⟨0x1F, ["O"]⟩,
    ⟨0x20, ["U"]⟩, ⟨0x22, ["I"]⟩, ⟨0x23, ["P"]⟩, ⟨0x25, ["L"]⟩, ⟨0x26, ["J"]⟩, ⟨0x28, ["K"]⟩,
    ⟨0x2D, ["N"]⟩, ⟨0x2E, ["M"]⟩,
    -- digits
    ⟨0x12, ["1"]⟩, ⟨0x13, ["2"]⟩, ⟨0x14, ["3"]⟩, ⟨0x15, ["4"]⟩, ⟨0x17, ["5"]⟩, ⟨0x16, ["6"]⟩,
    ⟨0x1A, ["7"]⟩, ⟨0x1C, ["8"]⟩, ⟨0x19, ["9"]⟩, ⟨0x1D, ["0"]⟩,
    -- punctuation
    ⟨0x18, ["=", "EQUAL"]⟩, ⟨0x1B, ["-", "MINUS"]⟩, ⟨0x1E, ["]", "RIGHT_BRACKET"]⟩,
    ⟨0x21, ["[", "LEFT_BRACKET"]⟩, ⟨0x27, ["'", "QUOTE"]⟩, ⟨0x29, [";", "SEMICOLON"]⟩,
    ⟨0x2A, ["\\", "BACKSLASH"]⟩, ⟨0x2B, [",", "COMMA"]⟩, ⟨0x2C, ["/", "SLASH"]⟩,
    ⟨0x2F, [".", "PERIOD"]⟩, ⟨0x32, ["`", "GRAVE"]⟩,
    -- editing and moving
    ⟨0x24, ["ENTER", "RETURN"]⟩, ⟨0x30, ["TAB"]⟩, ⟨0x31, ["SPACE"]⟩,
    ⟨0x33, ["BACKSPACE", "DELETE"]⟩, ⟨0x35, ["ESCAPE", "ESC"]⟩, ⟨0x39, ["CAPS_LOCK"]⟩,
    ⟨0x75, ["FORWARD_DELETE"]⟩, ⟨0x73, ["HOME"]⟩, ⟨0x77, ["END"]⟩, ⟨0x74, ["PAGE_UP"]⟩,
    ⟨0x79, ["PAGE_DOWN"]⟩, ⟨0x7B, ["LEFT"]⟩, ⟨0x7C, ["RIGHT"]⟩, ⟨0x7D, ["DOWN"]⟩, ⟨0x7E, ["UP"]⟩,
    -- modifiers pressed on their own
    ⟨0x37, ["CMD"]⟩, ⟨0x38, ["SHIFT"]⟩, ⟨0x3A, ["ALT"]⟩, ⟨0x3B, ["CTRL"]⟩,
    -- function keys
    ⟨0x7A, ["F1"]⟩, ⟨0x78, ["F2"]⟩, ⟨0x63, ["F3"]⟩, ⟨0x76, ["F4"]⟩, ⟨0x60, ["F5"]⟩, ⟨0x61, ["F6"]⟩,
    ⟨0x62, ["F7"]⟩, ⟨0x64, ["F8"]⟩, ⟨0x65, ["F9"]⟩, ⟨0x6D, ["F10"]⟩, ⟨0x67, ["F11"]⟩,
    ⟨0x6F, ["F12"]⟩ ]

/-- The code of the key with a name. -/
def code? (name : String) : Option UInt16 :=
  let upper := asciiUpper name
  (table.find? fun key => key.names.contains upper).map Key.code

/-- The code of the key that opens the power dialog. -/
def powerKey : UInt16 := 0x7F

/-- The flag that says a modifier is held. -/
def flag : Modifier → UInt64
  | .cmd => 0x100000
  | .shift => 0x20000
  | .ctrl => 0x40000
  | .alt => 0x80000

/-- The flags of a set of modifiers together. -/
def flags (set : Modifiers) : UInt64 := (set.toList.map flag).foldl (· ||| ·) 0

/-! ## Tests -/

example : code? "a" = some 0x00 ∧ code? "esc" = code? "ESCAPE" := by decide
example : code? "ſ" = none ∧ code? "" = none := by decide
example : flags (.ofList [.alt, .cmd]) = 0x180000 := by decide

end RemoteInput.Keyboard
