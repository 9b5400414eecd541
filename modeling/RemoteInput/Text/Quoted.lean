import RemoteInput.Text.Unshown
import RemoteInput.Text.Ascii

/-!
# Texts quoted in messages

A text that came from outside is repeated in a message between double quotes.
A quote and a backslash inside it get a backslash, and so do the four controls
that have a letter.  Every other character that would not be shown is written by
its code, in hexadecimal and in braces.  Single quotes are left alone.
-/

namespace RemoteInput.Quoted

/-- A character written by its code. -/
def byCode (c : Char) : List Char := ['\\', 'u', '{'] ++ Nat.toDigits 16 c.toNat ++ ['}']

/-- A character inside a quoted text. -/
def writeChar (c : Char) : List Char :=
  if c = '"' then ['\\', '"']
  else if c = '\\' then ['\\', '\\']
  else if c = '\n' then ['\\', 'n']
  else if c = '\r' then ['\\', 'r']
  else if c = '\t' then ['\\', 't']
  else if c = '\x00' then ['\\', '0']
  else if c.toNat < 0x20 || Unshown.contains c then byCode c
  else [c]

/-- A quoted text. -/
def write (text : String) : String := String.ofList ('"' :: text.toList.flatMap writeChar ++ ['"'])

/-! ## Tests -/

example : writeChar '"' = ['\\', '"'] := by decide +kernel
example : writeChar (Char.ofNat 39) = [Char.ofNat 39] := by decide +kernel
example : writeChar '\x1B' = ['\\', 'u', '{', '1', 'b', '}'] := by decide +kernel

end RemoteInput.Quoted
