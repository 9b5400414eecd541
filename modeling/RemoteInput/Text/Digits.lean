/-!
# Digits and powers

The digits of numbers in settings, in addresses and on the command line.  Only
the ASCII digits count, and hexadecimal digits may be in either case.

The bounds of numbers are powers.  A power of a number is the one of the core
library.  With another library at hand, `2 ^ n` could as well be read as a power
in a monoid, which is the same number but another term.  So the reading is
settled here.
-/

namespace RemoteInput

/-! ## Powers -/

/-- The powers of the core library. -/
@[default_instance 20000]
instance (priority := 2000) corePower {α : Type} [NatPow α] : Pow α Nat := instPowNat

namespace Digits

/-! ## Digits -/

/-- The value of a hexadecimal digit. -/
def hexValue? (c : Char) : Option Nat :=
  if c.isDigit then some (c.toNat - 0x30)
  else if 'a' ≤ c && c ≤ 'f' then some (c.toNat - 0x57)
  else if 'A' ≤ c && c ≤ 'F' then some (c.toNat - 0x37)
  else none

/-- Whether a character is a hexadecimal digit. -/
def isHex (c : Char) : Bool := (hexValue? c).isSome

/-- The number that digits of a base stand for. -/
def value (base : Nat) (digits : List Char) : Nat :=
  digits.foldl (fun n c => n * base + (hexValue? c).getD 0) 0

/-- The number that digits of a base stand for, if it lies below a bound. -/
def valueBelow? (bound base : Nat) (digits : List Char) : Option Nat :=
  digits.foldlM (fun n c =>
    let n := n * base + (hexValue? c).getD 0
    if n < bound then some n else none) 0

/-- The number that a text of decimal digits stands for, if it lies below a bound.  There is at
least one digit. -/
def decimalBelow? (bound : Nat) (text : List Char) : Option Nat :=
  if text.isEmpty || !text.all Char.isDigit then none else valueBelow? bound 10 text

/-! ## Tests -/

example : value 16 ['f', 'F'] = 255 ∧ decimalBelow? 8 ['0', '7'] = some 7 := by decide
example : valueBelow? 256 16 ['0', 'f', 'f'] = some 255 ∧ valueBelow? 255 16 ['f', 'f'] = none := by
  decide
example : decimalBelow? 9 [] = none ∧ decimalBelow? 9 ['1', 'x'] = none := by decide

end Digits

end RemoteInput
