import RemoteInput.Json.Fault
import RemoteInput.Text.Digits

/-!
# JSON numbers

A number is read in two steps.  The first takes the text apart into a
significand below `2^64` and a power of ten.  Digits enter the significand as
long as it stays below that bound.  Digits of the whole part that no longer fit
are dropped, each counting one power of ten, and digits of the fraction that no
longer fit are dropped without effect.

The second step scales the significand.  It is rounded to a double and then
multiplied or divided by a power of ten, which rounds again.  So the double may
differ from the nearest one to the text in its last bit.  A power above `308`
is out of range unless the significand is zero.  Below `-308` the significand is
divided by `10^308` first, as often as needed.
-/

namespace RemoteInput.Json.Number

open Ascii (isDigit digitValue)

/-! ## Scaling -/

/-- The largest significand. -/
def maxSignificand : Nat := 2 ^ 64 - 1

/-- The largest power of ten of an exponent part. -/
def maxExponent : Nat := 2 ^ 31 - 1

/-- The double nearest to a power of ten. -/
def powerOfTen (k : Nat) : Float := Float.ofScientific 1 false k

/-- Divides by `10^308` a number of times, or until zero. -/
def shrink : Nat → Float → Float
  | 0, x => x
  | n + 1, x => if x == 0 then x else shrink n (x / powerOfTen 308)

/-- Divides by `10^k`, the multiples of `10^308` first. -/
def divide (x : Float) (k : Nat) : Float :=
  let n := (k - 1) / 308
  shrink n x / powerOfTen (k - 308 * n)

/-- Multiplies by `10^k`.  Only zero survives a power above `308`. -/
def multiply (x : Float) (k : Nat) : Option Float :=
  if k ≤ 308 then some (x * powerOfTen k)
  else if x == 0 then some x
  else none

/-- The double of a significand times a power of ten, if it is finite. -/
def scale (significand : Nat) (exponent : Int) : Option Float :=
  let x := significand.toUInt64.toFloat
  let scaled := if exponent < 0 then some (divide x exponent.natAbs) else multiply x exponent.natAbs
  scaled.filter Float.isFinite

/-! ## Taking the text apart -/

/-- A significand times a power of ten. -/
structure Parts where
  /-- The significand. -/
  significand : Nat
  /-- The power of ten. -/
  exponent : Int

/-- Takes digits into a significand while they fit.  Gives the significand, the number of digits
taken and the bytes from the first one that was not. -/
def takeDigits (significand taken : Nat) : Bytes → Nat × Nat × Bytes
  | [] => (significand, taken, [])
  | b :: s =>
    if isDigit b && significand * 10 + digitValue b ≤ maxSignificand then
      takeDigits (significand * 10 + digitValue b) (taken + 1) s
    else (significand, taken, b :: s)

/-- Drops digits and counts them. -/
def dropDigits (dropped : Nat) : Bytes → Nat × Bytes
  | [] => (dropped, [])
  | b :: s => if isDigit b then dropDigits (dropped + 1) s else (dropped, b :: s)

/-- Reads the whole part.  A zero is followed by no digit. -/
def wholePart : Bytes → Except Fault (Parts × Bytes)
  | [] => .error ⟨.endInValue, []⟩
  | b :: s =>
    if b == Ascii.zero then
      match s with
      | [] => .ok (⟨0, 0⟩, [])
      | c :: s => if isDigit c then .error ⟨.invalidNumber, s⟩ else .ok (⟨0, 0⟩, c :: s)
    else if isDigit b then
      let (significand, _, s) := takeDigits (digitValue b) 0 s
      let (dropped, s) := dropDigits 0 s
      .ok (⟨significand, dropped⟩, s)
    else .error ⟨.invalidNumber, s⟩

/-- Reads a fraction, if there is one.  It has at least one digit. -/
def fraction (parts : Parts) : Bytes → Except Fault (Parts × Bytes)
  | Ascii.point :: s =>
    match s with
    | [] => .error ⟨.endInValue, []⟩
    | b :: s =>
      if isDigit b then
        let (significand, taken, s) := takeDigits parts.significand 0 (b :: s)
        .ok (⟨significand, parts.exponent - taken⟩, (dropDigits 0 s).2)
      else .error ⟨.invalidNumber, s⟩
  | s => .ok (parts, s)

/-- Reads the remaining digits of an exponent part.  The value is missing when it passes
`maxExponent`, and then the rest starts after the digit that made it so. -/
def exponentDigits (value : Nat) : Bytes → Option Nat × Bytes
  | [] => (some value, [])
  | b :: s =>
    if isDigit b then
      if value * 10 + digitValue b ≤ maxExponent then exponentDigits (value * 10 + digitValue b) s
      else (none, s)
    else (some value, b :: s)

/-- Scales what was read, up to the place where the text of the number ends. -/
def finish (parts : Parts) (s : Bytes) : Except Fault (Float × Bytes) :=
  match scale parts.significand parts.exponent with
  | some x => .ok (x, s)
  | none => .error ⟨.numberOutOfRange, s⟩

/-- Moves the power of ten by the number in an exponent part. -/
def Parts.shift (parts : Parts) (negative : Bool) (value : Nat) : Parts :=
  { parts with exponent := if negative then parts.exponent - value else parts.exponent + value }

/-- Reads the digits of an exponent part after its sign and scales the number. -/
def signedExponent (parts : Parts) (negative : Bool) : Bytes → Except Fault (Float × Bytes)
  | [] => .error ⟨.endInValue, []⟩
  | b :: s =>
    if isDigit b then
      match exponentDigits (digitValue b) s with
      | (some value, s) => finish (parts.shift negative value) s
      | (none, s) =>
        if parts.significand ≠ 0 && !negative then .error ⟨.numberOutOfRange, s⟩
        else .ok (0, (dropDigits 0 s).2)
    else .error ⟨.invalidNumber, s⟩

/-- Reads an exponent part, if there is one, and scales the number. -/
def exponentPart (parts : Parts) : Bytes → Except Fault (Float × Bytes)
  | b :: s =>
    if b == 0x65 || b == 0x45 then
      match s with
      | Ascii.plus :: s => signedExponent parts false s
      | Ascii.minus :: s => signedExponent parts true s
      | s => signedExponent parts false s
    else finish parts (b :: s)
  | [] => finish parts []

/-- Reads a number without its sign. -/
def unsigned (s : Bytes) : Except Fault (Float × Bytes) := do
  let (parts, s) ← wholePart s
  let (parts, s) ← fraction parts s
  exponentPart parts s

/-- Reads a number whose minus sign, if any, was read before. -/
def read (negative : Bool) (s : Bytes) : Except Fault (Float × Bytes) := do
  let (x, s) ← unsigned s
  return (if negative then -x else x, s)

end RemoteInput.Json.Number
