/-!
# ASCII

Everything the host reads from a sender is a list of bytes.  This module names
the bytes that the wire format gives a meaning, and the two classes of bytes it
asks about: the blank ones and the digits.  The classes are of ASCII alone: no
byte from `0x80` up belongs to either, so a byte of a longer UTF-8 character is
never blank and never a digit.

Names that may be given in either case are compared in upper case.  Only the
ASCII letters have a case here, so a text with other letters matches itself only.
-/

namespace RemoteInput

/-- A string of bytes, as it arrives on a connection. -/
abbrev Bytes := List UInt8

namespace Ascii

/-! ## Named bytes -/

/-- The horizontal tab. -/
@[match_pattern] abbrev tab : UInt8 := 0x09
/-- The line feed, which ends a line. -/
@[match_pattern] abbrev newline : UInt8 := 0x0A
/-- The form feed. -/
@[match_pattern] abbrev formFeed : UInt8 := 0x0C
/-- The carriage return. -/
@[match_pattern] abbrev carriageReturn : UInt8 := 0x0D
/-- The space. -/
@[match_pattern] abbrev space : UInt8 := 0x20
/-- The double quote. -/
@[match_pattern] abbrev quote : UInt8 := 0x22
/-- The plus sign. -/
@[match_pattern] abbrev plus : UInt8 := 0x2B
/-- The comma. -/
@[match_pattern] abbrev comma : UInt8 := 0x2C
/-- The minus sign. -/
@[match_pattern] abbrev minus : UInt8 := 0x2D
/-- The full stop. -/
@[match_pattern] abbrev point : UInt8 := 0x2E
/-- The solidus. -/
@[match_pattern] abbrev slash : UInt8 := 0x2F
/-- The digit zero. -/
@[match_pattern] abbrev zero : UInt8 := 0x30
/-- The colon. -/
@[match_pattern] abbrev colon : UInt8 := 0x3A
/-- The opening bracket of an array. -/
@[match_pattern] abbrev openBracket : UInt8 := 0x5B
/-- The backslash. -/
@[match_pattern] abbrev backslash : UInt8 := 0x5C
/-- The closing bracket of an array. -/
@[match_pattern] abbrev closeBracket : UInt8 := 0x5D
/-- The letter `b`. -/
@[match_pattern] abbrev letterB : UInt8 := 0x62
/-- The letter `f`. -/
@[match_pattern] abbrev letterF : UInt8 := 0x66
/-- The letter `n`. -/
@[match_pattern] abbrev letterN : UInt8 := 0x6E
/-- The letter `r`. -/
@[match_pattern] abbrev letterR : UInt8 := 0x72
/-- The letter `t`. -/
@[match_pattern] abbrev letterT : UInt8 := 0x74
/-- The letter `u`. -/
@[match_pattern] abbrev letterU : UInt8 := 0x75
/-- The opening brace of an object. -/
@[match_pattern] abbrev openBrace : UInt8 := 0x7B
/-- The closing brace of an object. -/
@[match_pattern] abbrev closeBrace : UInt8 := 0x7D

/-! ## Classes -/

/-- The blank bytes: space, tab, line feed, form feed and carriage return. -/
def isBlank (b : UInt8) : Bool :=
  b == space || b == tab || b == newline || b == formFeed || b == carriageReturn

/-- The digits `0` to `9`. -/
def isDigit (b : UInt8) : Bool := zero ≤ b && b ≤ 0x39

/-- The value of a digit. -/
def digitValue (b : UInt8) : Nat := b.toNat - 0x30

/-- The value of a hexadecimal digit, in either case. -/
def hexValue? (b : UInt8) : Option Nat :=
  if isDigit b then some (digitValue b)
  else if 0x61 ≤ b && b ≤ 0x66 then some (b.toNat - 0x57)
  else if 0x41 ≤ b && b ≤ 0x46 then some (b.toNat - 0x37)
  else none

/-- A hexadecimal digit below sixteen, in lower case. -/
def hexDigit (n : Nat) : Char := Char.ofNat (if n < 10 then 0x30 + n else 0x57 + n)

/-! ## Tests -/

example : [space, tab, newline, formFeed, carriageReturn].all isBlank = true := by decide
example : [0x0B, 0x00, 0x85, 0xA0].all (fun b => !isBlank b) = true := by decide
example : hexValue? 0x46 = some 15 ∧ hexValue? 0x66 = some 15 ∧ hexValue? 0x67 = none := by decide
example : hexDigit 10 = 'a' ∧ hexDigit 9 = '9' := by decide

end Ascii

/-! ## Letters -/

/-- A text with its ASCII letters in upper case. -/
def asciiUpper (s : String) : String := String.ofList (s.toList.map Char.toUpper)

end RemoteInput
