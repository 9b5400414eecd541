import RemoteInput.Toml.Text
import RemoteInput.Toml.Value

/-!
# Numbers, truth values and dates in TOML

A value that starts with a sign or a digit is a date or a time, a floating point
number or an integer.  They are tried in that order, and the first that can be
read is taken.  Digits may have single underscores between them.  An integer
fits 64 bits with sign.  A floating point number is the double nearest to its
text, and its text may not lie above the doubles.  Its power of ten is read only
up to a bound far beyond any double, which shows when as many places make up for
it.
-/

namespace RemoteInput.Toml.Scalar

/-! ## Digits -/

/-- Reads the digits of a class after at least one was read.  An underscore stands between two. -/
def moreDigits (isDigit : Char → Bool) (seen : List Char) : List Char → List Char × List Char
  | '_' :: c :: s =>
    if isDigit c then moreDigits isDigit (c :: seen) s else (seen.reverse, '_' :: c :: s)
  | c :: s => if isDigit c then moreDigits isDigit (c :: seen) s else (seen.reverse, c :: s)
  | [] => (seen.reverse, [])

/-- Reads at least one digit of a class. -/
def digits (isDigit : Char → Bool) : List Char → Option (List Char × List Char)
  | c :: s => if isDigit c then some (moreDigits isDigit [c] s) else none
  | [] => none

/-- Reads a sign, if there is one.  Gives whether it is a minus. -/
def sign : List Char → Bool × List Char
  | '+' :: s => (false, s)
  | '-' :: s => (true, s)
  | s => (false, s)

/-- Reads the whole part of a decimal number: a single digit, or digits of which the first is not
zero. -/
def wholePart : List Char → Option (List Char × List Char)
  | '0' :: s => some (['0'], s)
  | s => digits Char.isDigit s

/-! ## Integers -/

/-- Reads digits of a base below `2^63`. -/
def based (base : Nat) (isDigit : Char → Bool) (s : List Char) : Option (Toml × List Char) := do
  let (ds, s) ← digits isDigit s
  let n ← Digits.valueBelow? (2 ^ 63) base ds
  return (.integer n, s)

/-- Reads an integer. -/
def integer : List Char → Option (Toml × List Char)
  | '0' :: 'x' :: s => based 16 Digits.isHex s
  | '0' :: 'o' :: s => based 8 (fun c => '0' ≤ c && c ≤ '7') s
  | '0' :: 'b' :: s => based 2 (fun c => c = '0' || c = '1') s
  | s => do
    let (negative, s) := sign s
    let (ds, s) ← wholePart s
    if negative then
      let n ← Digits.valueBelow? (2 ^ 63 + 1) 10 ds
      return (.integer (-n), s)
    else
      let n ← Digits.valueBelow? (2 ^ 63) 10 ds
      return (.integer n, s)

/-! ## Floating point numbers -/

/-- How many digits of a number are worked out.  No double and no point halfway between two of them
has so many. -/
def maxDigits : Nat := 800

/-- The double nearest to `n * 10 ^ exponent`. -/
def scaled (n : Nat) (exponent : Int) : Float :=
  Float.ofScientific n (decide (exponent < 0)) exponent.natAbs

/-- The double nearest to `digits * 10 ^ exponent`.  Far outside the doubles the power is not
worked out.  Of the digits that are not, it only matters whether all are zero, and a single one
stands for them if not. -/
def nearest (digits : List Char) (exponent : Int) : Float :=
  let digits := digits.dropWhile (· = '0')
  let size : Int := digits.length + exponent
  if digits.isEmpty || size < -400 then 0
  else if 400 < size then 1 / 0
  else
    let n := Digits.value 10 (digits.take maxDigits)
    let others := digits.drop maxDigits
    if others.all (· = '0') then scaled n (exponent + others.length)
    else scaled (n * 10 + 1) (exponent + others.length - 1)

/-- Reads a fraction. -/
def fraction : List Char → Option (List Char × List Char)
  | '.' :: s => digits Char.isDigit s
  | _ => none

/-- The number that the digits of a power of ten stand for.  Digits are taken in until the number
reaches `2^16`, and those after that have no effect. -/
def powerOf (digits : List Char) : Nat :=
  digits.foldl (fun n c => if n < 2 ^ 16 then n * 10 + (Digits.hexValue? c).getD 0 else n) 0

/-- Reads the power of ten of a number. -/
def exponent : List Char → Option (Int × List Char)
  | c :: s => do
    if c = 'e' || c = 'E' then
      let (negative, s) := sign s
      let (ds, s) ← digits Char.isDigit s
      let n : Int := powerOf ds
      return (if negative then -n else n, s)
    else none
  | [] => none

/-- Reads a word that stands for a floating point number. -/
def specialFloat : List Char → Option (Float × List Char)
  | 'i' :: 'n' :: 'f' :: s => some (1 / 0, s)
  | 'n' :: 'a' :: 'n' :: s => some (0 / 0, s)
  | _ => none

/-- The value of a number, unless its text lies above the doubles. -/
def floatValue (negative : Bool) (x : Float) : Option Toml :=
  if negative then some (.float (-x)) else if x.isInf then none else some (.float x)

/-- Reads a floating point number. -/
def float (s : List Char) : Option (Toml × List Char) :=
  let (negative, s) := sign s
  match specialFloat s with
  | some (x, s) => some (.float (if negative then -x else x), s)
  | none => do
    let (whole, s) ← wholePart s
    match fraction s with
    | some (places, s) =>
      let (power, s) := (exponent s).getD (0, s)
      let value ← floatValue negative (nearest (whole ++ places) (power - places.length))
      return (value, s)
    | none =>
      let (power, s) ← exponent s
      let value ← floatValue negative (nearest whole power)
      return (value, s)

/-! ## Dates and times -/

/-- Reads a number of exactly so many digits, within bounds. -/
def field (width least greatest : Nat) (s : List Char) : Option (Nat × List Char) :=
  let ds := s.take width
  let n := Digits.value 10 ds
  if ds.length = width && ds.all Char.isDigit && least ≤ n && n ≤ greatest then
    some (n, s.drop width)
  else none

/-- The text after a character. -/
def expect (c : Char) : List Char → Option (List Char)
  | d :: s => if d = c then some s else none
  | [] => none

/-- The number of days of a month. -/
def daysOf (year month : Nat) : Nat :=
  if month = 2 then
    if year % 4 = 0 && (year % 100 ≠ 0 || year % 400 = 0) then 29 else 28
  else if month = 4 || month = 6 || month = 9 || month = 11 then 30
  else 31

/-- The text after a date. -/
def date? (s : List Char) : Option (List Char) := do
  let (year, s) ← field 4 0 9999 s
  let s ← expect '-' s
  let (month, s) ← field 2 1 12 s
  let s ← expect '-' s
  let (_, s) ← field 2 1 (daysOf year month) s
  return s

/-- The text after a fraction of a second, if there is one. -/
def skipPlaces (s : List Char) : List Char :=
  match s with
  | '.' :: c :: t => if c.isDigit then t.dropWhile Char.isDigit else s
  | _ => s

/-- The text after a time of day. -/
def time? (s : List Char) : Option (List Char) := do
  let (_, s) ← field 2 0 23 s
  let s ← expect ':' s
  let (_, s) ← field 2 0 59 s
  let s ← expect ':' s
  let (_, s) ← field 2 0 60 s
  return skipPlaces s

/-- The text after an offset from universal time. -/
def offset? : List Char → Option (List Char)
  | [] => none
  | c :: s =>
    if c = 'Z' || c = 'z' then some s
    else if c = '+' || c = '-' then do
      let (_, s) ← field 2 0 23 s
      let s ← expect ':' s
      let (_, s) ← field 2 0 59 s
      return s
    else none

/-- The text after a time of day that belongs to a date. -/
def timeOfDate? : List Char → Option (List Char)
  | [] => none
  | c :: s =>
    if c = 'T' || c = 't' || c = ' ' then do
      let s ← time? s
      return (offset? s).getD s
    else none

/-- Reads a date, a time, or both. -/
def datetime (s : List Char) : Option (Toml × List Char) :=
  match date? s with
  | some s => some (.datetime, (timeOfDate? s).getD s)
  | none => (time? s).map (.datetime, ·)

/-! ## Any scalar -/

/-- Reads a truth value. -/
def boolean : List Char → Option (Toml × List Char)
  | 't' :: 'r' :: 'u' :: 'e' :: s => some (.boolean true, s)
  | 'f' :: 'a' :: 'l' :: 's' :: 'e' :: s => some (.boolean false, s)
  | _ => none

/-- Reads a value that is neither a text nor in brackets. -/
def read (s : List Char) : Option (Toml × List Char) :=
  boolean s <|> datetime s <|> float s <|> integer s

end RemoteInput.Toml.Scalar
