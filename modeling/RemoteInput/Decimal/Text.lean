import RemoteInput.Decimal.Shortest

/-!
# Writing decimals

The shortest decimal of a double is written with its point in place or with an
exponent.  Which of the two it is, and how, is a `Style`.

The point is in place when it lies close enough to the digits.  Its position is
counted from the start of the digits: `123.4` has its point at three and
`0.0012` at minus two.  A number written so always has a digit on both sides of
the point.  Otherwise one digit stands before the point, no point is written if
none follows, and the exponent has its sign and no leading zero.
-/

namespace RemoteInput.Decimal

/-- Where a style puts the point in place. -/
structure Style where
  /-- The least position of a point that is put in place, if there is one. -/
  least : Option Int
  /-- The greatest position of a point that is put in place, if there is one. -/
  greatest : Option Int

/-- Numbers in a message: the point is in place from `0.00001` up to below `10^16`. -/
def Style.message : Style := ⟨some (-4), some 16⟩

/-- Numbers in an error text: the point is always in place. -/
def Style.positional : Style := ⟨none, none⟩

/-- Whether a style puts a point at a position in place. -/
def Style.inPlace (style : Style) (point : Int) : Bool :=
  style.least.all (· ≤ point) && style.greatest.all (point ≤ ·)

/-- Digits with the point in place. -/
def positional (digits : List Char) (point : Int) : List Char :=
  if point ≤ 0 then ['0', '.'] ++ List.replicate point.natAbs '0' ++ digits
  else if digits.length ≤ point.natAbs then
    digits ++ List.replicate (point.natAbs - digits.length) '0' ++ ['.', '0']
  else digits.take point.natAbs ++ '.' :: digits.drop point.natAbs

/-- Digits with an exponent. -/
def exponential (digits : List Char) (point : Int) : List Char :=
  let mantissa :=
    match digits with
    | [] => ['0']
    | [d] => [d]
    | d :: ds => d :: '.' :: ds
  let exponent := point - 1
  mantissa ++ 'e' :: (if exponent < 0 then '-' else '+') :: Nat.toDigits 10 exponent.natAbs

/-- A decimal in a style, without a sign. -/
def write (style : Style) (d : Decimal) : List Char :=
  let digits := Nat.toDigits 10 d.digits
  let point : Int := d.exponent + digits.length
  if style.inPlace point then positional digits point else exponential digits point

/-- A finite double in a style. -/
def writeFloat (style : Style) (x : Float) : List Char :=
  let magnitude := write style (shortest x)
  if Binary.isNegative x then '-' :: magnitude else magnitude

/-! ## Tests -/

example : write .message ⟨0, 0⟩ = ['0', '.', '0'] := by decide
example : write .message ⟨1, -5⟩ = ['0', '.', '0', '0', '0', '0', '1'] := by decide
example : write .message ⟨1, -6⟩ = ['1', 'e', '-', '6'] := by decide
example : write .message ⟨1, 16⟩ = ['1', 'e', '+', '1', '6'] := by decide
example : write .message ⟨15, 99⟩ = ['1', '.', '5', 'e', '+', '1', '0', '0'] := by decide
example : write .message ⟨12, 3⟩ = ['1', '2', '0', '0', '0', '.', '0'] := by decide
example : write .message ⟨1234, -2⟩ = ['1', '2', '.', '3', '4'] := by decide
example : write .positional ⟨1, 3⟩ = ['1', '0', '0', '0', '.', '0'] := by decide

end RemoteInput.Decimal
