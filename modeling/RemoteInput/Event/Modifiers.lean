import RemoteInput.Event.Vocabulary

/-!
# Sets of modifiers

A set of modifiers is a mask of eight bits with one bit for each of the four
modifiers.  The other four bits are clear, which is part of the type.  So two
sets are equal exactly when their masks are.
-/

namespace RemoteInput

/-- The bit of a modifier in a mask. -/
def Modifier.bit : Modifier → UInt8
  | .cmd => 1
  | .shift => 2
  | .ctrl => 4
  | .alt => 8

theorem Modifier.bit_lt (m : Modifier) : m.bit < 16 := by
  cases m <;> decide

/-- A set of modifiers, held as a mask. -/
structure Modifiers where
  /-- One bit for each member. -/
  mask : UInt8
  /-- The other bits are clear. -/
  mask_lt : mask < 16
  deriving DecidableEq

namespace Modifiers

/-- The set without members. -/
def empty : Modifiers := ⟨0, by decide⟩

instance : EmptyCollection Modifiers := ⟨empty⟩

theorem or_bit_lt {mask : UInt8} (h : mask < 16) (m : Modifier) : mask ||| m.bit < 16 := by
  have hm := m.bit_lt
  rw [UInt8.lt_iff_toNat_lt] at h hm ⊢
  rw [UInt8.toNat_or]
  exact Nat.or_lt_two_pow (n := 4) h hm

/-- The set with one more member. -/
def insert (set : Modifiers) (m : Modifier) : Modifiers :=
  ⟨set.mask ||| m.bit, or_bit_lt set.mask_lt m⟩

/-- Whether a modifier is a member. -/
def contains (set : Modifiers) (m : Modifier) : Bool := set.mask &&& m.bit != 0

/-- Whether there is no member. -/
def isEmpty (set : Modifiers) : Bool := set.mask == 0

/-- The number of members, counted on the bits of the mask. -/
def size (set : Modifiers) : Nat := (List.range 8).countP (set.mask.toNat.testBit ·)

/-- The set of the modifiers of a list, in which they may repeat. -/
def ofList (ms : List Modifier) : Modifiers := ms.foldl insert empty

/-- The members, once each and in canonical order. -/
def toList (set : Modifiers) : List Modifier := (Vocabulary.all : List Modifier).filter set.contains

/-! ## Tests -/

example : (ofList [.alt, .cmd, .alt]).toList = [.cmd, .alt] := by decide
example : ofList [.shift, .ctrl] = ofList [.ctrl, .shift, .shift] := by decide

end Modifiers

end RemoteInput
