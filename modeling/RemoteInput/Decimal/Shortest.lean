import RemoteInput.Text.Digits

/-!
# The shortest decimal of a double

A finite double other than zero is a significand `m` times a power of two.  The
reals that round to it form an interval around it.  Each end lies half way to a
neighbour, and the ends belong to the interval when `m` is even.

For a number of digits the decimals of that many digits form a grid.  If a point
of the grid lies in the interval, so does one of the two points next to the
value.  `Decimal.shortest` tries one digit, two digits and so on, and takes the
first grid with a hit.  Of two hits it takes the nearer one, and of two equally
near ones the even one.  Seventeen digits are always enough.

All arithmetic is on natural numbers.  The value and the ends of its interval
are kept as numerators of one denominator.
-/

namespace RemoteInput

/-! ## Doubles taken apart -/

/-- A value `significand * 2 ^ exponent`. -/
structure Binary where
  /-- The significand. -/
  significand : Nat
  /-- The power of two. -/
  exponent : Int

/-- The magnitude of a finite double. -/
def Binary.ofFloat (x : Float) : Binary :=
  let bits := x.toBits.toNat
  let field : Nat := bits / 2 ^ 52 % 2 ^ 11
  let fraction : Nat := bits % 2 ^ 52
  if field = 0 then ⟨fraction, -1074⟩ else ⟨2 ^ 52 + fraction, (field : Int) - 1075⟩

/-- Whether the sign bit of a double is set. -/
def Binary.isNegative (x : Float) : Bool := x.toBits >>> 63 == 1

/-- A decimal `digits * 10 ^ exponent`. -/
structure Decimal where
  /-- The digits, as one number. -/
  digits : Nat
  /-- The power of ten. -/
  exponent : Int
  deriving DecidableEq

namespace Decimal

/-! ## The interval of a double -/

/-- A value and the ends of its interval, as numerators of one denominator. -/
structure Interval where
  /-- The lower end. -/
  low : Nat
  /-- The value. -/
  mid : Nat
  /-- The upper end. -/
  high : Nat
  /-- The denominator. -/
  denominator : Nat
  /-- Whether the ends belong to the interval. -/
  closed : Bool

/-- The reals that round to a value.  Below the least significand of full length the neighbours
are twice as close, unless the exponent is the least one. -/
def Interval.ofBinary (b : Binary) : Interval :=
  let below := if b.significand = 2 ^ 52 ∧ b.exponent ≠ -1074 then 1 else 2
  let up := 2 ^ (b.exponent - 2).toNat
  { low := (4 * b.significand - below) * up
    mid := 4 * b.significand * up
    high := (4 * b.significand + 2) * up
    denominator := 2 ^ (2 - b.exponent).toNat
    closed := b.significand % 2 = 0 }

/-- The interval of a value divided by a power of ten. -/
def Interval.scale (i : Interval) (exponent : Int) : Interval :=
  let up := 10 ^ (-exponent).toNat
  { i with
    low := i.low * up
    mid := i.mid * up
    high := i.high * up
    denominator := i.denominator * 10 ^ exponent.toNat }

/-- Whether a whole number lies in an interval. -/
def Interval.contains (i : Interval) (n : Nat) : Bool :=
  let n := n * i.denominator
  if i.closed then i.low ≤ n && n ≤ i.high else i.low < n && n < i.high

/-- The whole number of an interval next to its value: the nearer of two, or else the even one. -/
def Interval.nearest? (i : Interval) : Option Nat :=
  let floor := i.mid / i.denominator
  let past := 2 * (i.mid % i.denominator)
  match i.contains floor, i.contains (floor + 1) with
  | false, false => none
  | true, false => some floor
  | false, true => some (floor + 1)
  | true, true =>
    if past < i.denominator then some floor
    else if i.denominator < past then some (floor + 1)
    else some (if floor % 2 = 0 then floor else floor + 1)

/-! ## Grids -/

/-- The number of digits before the point, for a value of at least one, and minus the number of
zeros after the point otherwise.  The estimate from the power of two is off by at most one. -/
def magnitude (b : Binary) (i : Interval) : Int :=
  let guess : Int := (b.exponent + b.significand.log2) * 315653 / 2 ^ 20
  let value := i.scale guess
  if value.mid < value.denominator then guess
  else if value.mid < 10 * value.denominator then guess + 1
  else guess + 2

/-- Drops the zeros at the end of the digits, at most `bound` of them. -/
def trim : Nat → Decimal → Decimal
  | 0, d => d
  | bound + 1, d => if d.digits % 10 = 0 then trim bound ⟨d.digits / 10, d.exponent + 1⟩ else d

/-- The shortest decimal that rounds to a value other than zero. -/
def ofBinary (b : Binary) : Decimal :=
  let i := Interval.ofBinary b
  let top := magnitude b i
  let hit := (List.range 17).findSome? fun n =>
    let exponent := top - (n + 1 : Nat)
    ((i.scale exponent).nearest?).map fun digits => trim 17 ⟨digits, exponent⟩
  hit.getD ⟨b.significand, 0⟩

/-- The shortest decimal that rounds to the magnitude of a finite double.  Zero is itself. -/
def shortest (x : Float) : Decimal :=
  let b := Binary.ofFloat x
  if b.significand = 0 then ⟨0, 0⟩ else ofBinary b

/-! ## Tests -/

example : ofBinary ⟨1, -1074⟩ = ⟨5, -324⟩ := by decide +kernel
example : ofBinary ⟨2 ^ 53 - 1, 971⟩ = ⟨17976931348623157, 292⟩ := by decide +kernel
example : ofBinary ⟨2 ^ 52, -1074⟩ = ⟨22250738585072014, -324⟩ := by decide +kernel
example : ofBinary ⟨7205759403792794, -56⟩ = ⟨1, -1⟩ := by decide +kernel
example : ofBinary ⟨2 ^ 52, -52⟩ = ⟨1, 0⟩ := by decide +kernel
example : ofBinary ⟨2 ^ 52, 1⟩ = ⟨9007199254740992, 0⟩ := by decide +kernel

end Decimal

end RemoteInput
