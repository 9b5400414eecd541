import Mathlib
import RemoteInput.Json.Number

/-!
# Doubles that are not finite

A double is finite unless it is no number or an infinite one, and its opposite is
finite if it is.  What leaves the range of the doubles is infinite.  How far a number
has to go for that is asked here for what the number reader computes, a whole number
that is rounded and multiplied by a rounded power of ten.

Rounding to 53 bits gives at least the number less one part in `2^52`
(`roundWithAccuracy_long`), which is what `Covers` says of a double.  A product of two
doubles is infinite once its first bit is past the range (`not_isFinite_mul`).  So a
significand and a power of ten whose product is past the range by more than two
roundings do not make a finite double (`scale_eq_none`).

The bits of a double are those of the model of doubles that the arithmetic is defined
by: the double is unpacked, the operation is performed on numbers without a bound, and
the result is rounded and packed again.
-/

namespace RemoteInput.Double

open Float.Model (Format)
open Float.Model.UnpackedFloat
open Float.Model (UnpackedFloat totalExponent)

/-! ## Rounding -/

theorem shiftRight_mantissa (em : ExtendedMantissa) (n : Nat) :
    (em >>> n).mantissa = em.mantissa / 2 ^ n := by
  induction n with
  | zero => exact (Nat.div_one _).symm
  | succ n ih =>
      show (em >>> n).mantissa / 2 = em.mantissa / 2 ^ (n + 1)
      rw [ih, Nat.div_div_eq_div_mul, Nat.pow_succ]

theorem roundedMantissa_bounds (em : ExtendedMantissa) :
    em.mantissa ≤ em.roundedMantissa ∧ em.roundedMantissa ≤ em.mantissa + 1 := by
  obtain ⟨m, roundBit, stickyBit⟩ := em
  cases roundBit <;> cases stickyBit <;>
    simp only [ExtendedMantissa.roundedMantissa, ExtendedMantissa.accuracy,
      Accuracy.roundToNearestEven] <;> omega

theorem targetExponent_eq (m : Nat) (e : Int) :
    Format.binary64.targetExponent (totalExponent m e) = max (m.log2 + e - 52) (-1074) := by
  show max ((m.log2 : Int) + 1 + e - 53) (-1074) = _
  congr 1
  omega

theorem log2_eq {m : Nat} (hlow : 2 ^ 52 ≤ m) (hhigh : m < 2 ^ 53) : m.log2 = 52 := by
  have hne : m ≠ 0 := by omega
  have h1 := (Nat.le_log2 hne).mpr hlow
  have h2 := (Nat.log2_lt hne).mpr hhigh
  omega

theorem shift_fits {m : Nat} {e : Int} (hm : m < 2 ^ 53) (he : -1074 ≤ e) :
    shiftToTargetExponent .binary64 m e .exact = (⟨m, false, false⟩, e) := by
  have hlog : m.log2 ≤ 52 := by
    by_cases hzero : m = 0
    · simp [hzero]
    · have := (Nat.log2_lt hzero).mpr hm
      omega
  have hshift : (Format.binary64.targetExponent (totalExponent m e) - e).toNat = 0 := by
    rw [targetExponent_eq]
    omega
  simp only [shiftToTargetExponent, shiftToExponent, hshift]
  exact Prod.ext rfl (by simp)

theorem shift_long {m : Nat} {e : Int} (hm : 52 ≤ m.log2) (he : -1074 ≤ m.log2 + e - 52) :
    ∃ em, shiftToTargetExponent .binary64 m e .exact = (em, m.log2 + e - 52) ∧
      em.mantissa = m / 2 ^ (m.log2 - 52) := by
  have hshift : (Format.binary64.targetExponent (totalExponent m e) - e).toNat = m.log2 - 52 := by
    rw [targetExponent_eq]
    omega
  refine ⟨(⟨m, false, false⟩ : ExtendedMantissa) >>> (m.log2 - 52), ?_, shiftRight_mantissa _ _⟩
  simp only [shiftToTargetExponent, shiftToExponent, hshift]
  exact Prod.ext rfl (by simp only; omega)

/-- Cutting a number after its 53rd bit leaves 53 bits. -/
theorem div_bounds {m : Nat} (hm : 52 ≤ m.log2) :
    2 ^ 52 ≤ m / 2 ^ (m.log2 - 52) ∧ m / 2 ^ (m.log2 - 52) < 2 ^ 53 := by
  have hne : m ≠ 0 := by
    rintro rfl
    simp at hm
  have hpow : 0 < 2 ^ (m.log2 - 52) := Nat.two_pow_pos _
  constructor
  · rw [Nat.le_div_iff_mul_le hpow, ← Nat.pow_add]
    exact Nat.le_trans (Nat.pow_le_pow_right (by decide) (by omega)) (Nat.log2_self_le hne)
  · rw [Nat.div_lt_iff_lt_mul hpow, ← Nat.pow_add]
    exact Nat.lt_of_lt_of_le Nat.lt_log2_self (Nat.pow_le_pow_right (by decide) (by omega))

/-- What is cut off is less than one in the last of 53 places. -/
theorem cut_le {m k r : Nat} (hlong : 2 ^ 52 ≤ m / 2 ^ k) (hr : m / 2 ^ k ≤ r) :
    m * 2 ^ 52 ≤ r * 2 ^ k * (2 ^ 52 + 1) := by
  have hlt : m < (m / 2 ^ k + 1) * 2 ^ k := by
    rw [Nat.add_mul, Nat.one_mul]
    exact Nat.lt_div_mul_add (Nat.two_pow_pos k)
  calc
    m * 2 ^ 52 ≤ (m / 2 ^ k + 1) * 2 ^ k * 2 ^ 52 := Nat.mul_le_mul_right _ hlt.le
    _ = (m / 2 ^ k * 2 ^ 52 + 2 ^ 52) * 2 ^ k := by ring
    _ ≤ (m / 2 ^ k * 2 ^ 52 + m / 2 ^ k) * 2 ^ k := by gcongr
    _ = m / 2 ^ k * 2 ^ k * (2 ^ 52 + 1) := by ring
    _ ≤ r * 2 ^ k * (2 ^ 52 + 1) := by gcongr

/-- The value of a significand and a power of two. -/
def value (m : Nat) (e : Int) : ℚ := m * 2 ^ e

theorem value_nonneg (m : Nat) (e : Int) : 0 ≤ value m e := by
  unfold value
  positivity

theorem value_add (m : Nat) (e : Int) (k : Nat) : value m (e + k) = value (m * 2 ^ k) e := by
  rw [value, value, zpow_add₀ (by norm_num), zpow_natCast, Nat.cast_mul, Nat.cast_pow]
  push_cast
  ring

theorem value_mono {m m' : Nat} (h : m ≤ m') (e : Int) : value m e ≤ value m' e := by
  unfold value
  gcongr

/-- A value that is not below a power of two has its first bit there or further up. -/
theorem le_log2_of_le_value {m : Nat} {e k : Int} (h : 2 ^ k ≤ value m e) : k ≤ m.log2 + e := by
  have hlt : value m e < 2 ^ (m.log2 + 1 + e : Int) := by
    rw [value, zpow_add₀ (two_ne_zero' ℚ) (m.log2 + 1)]
    refine mul_lt_mul_of_pos_right ?_ (by positivity)
    exact_mod_cast Nat.lt_log2_self
  have hless := (zpow_lt_zpow_iff_right₀ one_lt_two).mp (lt_of_le_of_lt h hlt)
  omega

theorem roundWithAccuracy_long (s : Sign) {m : Nat} {e : Int} (hm : 52 ≤ m.log2)
    (he : -1074 ≤ m.log2 + e - 52) :
    ∃ m' e' h, roundWithAccuracy .binary64 s m e .exact = .finite s m' e' h ∧
      2 ^ 52 ≤ m' ∧ m' < 2 ^ 53 ∧ m.log2 + e - 52 ≤ e' ∧ e' ≤ m.log2 + e - 51 ∧
      value (m * 2 ^ 52) e ≤ value (m' * (2 ^ 52 + 1)) e' := by
  obtain ⟨em, hfirst, hcut⟩ := shift_long hm he
  obtain ⟨hlow, hhigh⟩ := div_bounds hm
  obtain ⟨hle, hle'⟩ := roundedMantissa_bounds em
  rw [hcut] at hle hle'
  have hexp : (m.log2 : Int) + e - 52 = e + (m.log2 - 52 : Nat) := by omega
  have hvalue : value (m * 2 ^ 52) e ≤
      value (em.roundedMantissa * (2 ^ 52 + 1)) (m.log2 + e - 52) := by
    rw [hexp, value_add]
    refine value_mono (Nat.le_trans (cut_le hlow hle) (Nat.le_of_eq ?_)) e
    ring
  by_cases hcarry : em.roundedMantissa < 2 ^ 53
  · refine ⟨em.roundedMantissa, m.log2 + e - 52, by omega, ?_, by omega, hcarry, by omega, by omega,
      hvalue⟩
    have hne : em.roundedMantissa ≠ 0 := by omega
    rw [roundWithAccuracy, hfirst]
    dsimp only
    rw [shift_fits hcarry he]
    exact dif_neg hne
  · have hmax : em.roundedMantissa = 2 ^ 53 := by omega
    have hlog : (2 ^ 53).log2 = 53 := Nat.log2_two_pow
    obtain ⟨em', hsecond, hcut'⟩ := shift_long (m := 2 ^ 53) (e := m.log2 + e - 52)
      (by rw [hlog]; decide) (by rw [hlog]; omega)
    rw [hlog] at hsecond hcut'
    refine ⟨em'.mantissa, m.log2 + e - 51, by rw [hcut']; decide, ?_, by rw [hcut']; decide,
      by rw [hcut']; decide, by omega, by omega, ?_⟩
    · rw [roundWithAccuracy, hfirst]
      dsimp only
      rw [hmax, hsecond]
      have hne : em'.mantissa ≠ 0 := by rw [hcut']; decide
      have hexp' : (53 : Nat) + ((m.log2 : Int) + e - 52) - 52 = m.log2 + e - 51 := by omega
      dsimp only
      rw [dif_neg hne]
      congr 1
    · have hexp' : (m.log2 : Int) + e - 51 = (m.log2 + e - 52) + (1 : Nat) := by omega
      rw [hexp', value_add, hcut']
      rwa [hmax] at hvalue

/-! ## Packing -/

theorem isFinite_unpack (b : BitVec Format.binary64.numBits) :
    (unpack .binary64 b).isFinite = !decide (unpackExponent b = -1#11) := by
  rw [unpack]
  split
  next hones =>
      rw [decide_eq_true hones]
      split <;> rfl
  next hother =>
      rw [decide_eq_false hother]
      split
      next => split <;> rfl
      next => rfl

theorem exponent_le_of_unpack {b : BitVec Format.binary64.numBits} {s : Sign} {m : Nat} {e : Int}
    {h : 0 < m} (hb : unpack .binary64 b = .finite s m e h) : e ≤ 971 := by
  have hbias : Format.binary64.exponentBias = 1023 := rfl
  have hfield : (unpackExponent b).toNat < 2 ^ 11 := (unpackExponent b).isLt
  rw [unpack] at hb
  split at hb
  next => split at hb <;> cases hb
  next hother =>
      have hne : (unpackExponent b).toNat ≠ 2047 := by
        intro heq
        exact hother (BitVec.eq_of_toNat_eq heq)
      split at hb
      next hzero =>
          split at hb
          · cases hb
          · simp only [UnpackedFloat.finite.injEq] at hb
            have hnat : (unpackExponent b).toNat = 0 := by rw [hzero]; rfl
            omega
      next =>
          simp only [UnpackedFloat.finite.injEq] at hb
          omega

/-- A field below the largest one is not the largest one. -/
theorem ofNat_ne_ones {n : Nat} (h : n < 2047) : BitVec.ofNat 11 n ≠ -1#11 := by
  intro heq
  have hnat : n % 2 ^ 11 = 2047 := congrArg BitVec.toNat heq
  omega

theorem ofNat_ne_zero {n : Nat} (h : 0 < n) (h' : n < 2047) : BitVec.ofNat 11 n ≠ 0#11 := by
  intro heq
  have hnat : n % 2 ^ 11 = 0 := congrArg BitVec.toNat heq
  omega

theorem isFinite_pack_finite {s : Sign} {m : Nat} {e : Int} (h : 0 < m) :
    (Float.Model.pack (.finite s m e h)).isFinite = decide (e ≤ 971) := by
  show (unpack .binary64 (pack .binary64 (.finite s m e h))).isFinite = _
  have hbias : (Format.binary64.exponentBias : Int) = 1023 := rfl
  rw [isFinite_unpack, pack]
  dsimp only
  split
  next hover =>
      have hlarge : ¬ e ≤ 971 := by omega
      rw [packedInfinity, unpackExponent_packComponents, decide_eq_false hlarge]
      rfl
  next hfits =>
      have hsmall : e ≤ 971 := by omega
      rw [decide_eq_true hsmall]
      split
      · rw [unpackExponent_packComponents, decide_eq_false (ofNat_ne_ones (by omega))]
        rfl
      · rw [unpackExponent_packComponents]
        rfl

/-- The bit in front of the mantissa field. -/
theorem toNat_one_append {m : Nat} (hlow : 2 ^ 52 ≤ m) (hhigh : m < 2 ^ 53) :
    (1#1 ++ BitVec.ofNat 52 m).toNat = m := by
  rw [BitVec.toNat_append, ← Nat.shiftLeft_add_eq_or_of_lt (BitVec.ofNat 52 m).isLt,
    Nat.shiftLeft_eq]
  show 1 * 2 ^ 52 + m % 2 ^ 52 = m
  omega

theorem unpack_pack_normal {s : Sign} {m : Nat} {e : Int} (h : 0 < m) (hlow : 2 ^ 52 ≤ m)
    (hhigh : m < 2 ^ 53) (he : -1074 ≤ e) (he' : e ≤ 971) :
    (Float.Model.pack (.finite s m e h)).unpack = .finite s m e h := by
  show unpack .binary64 (pack .binary64 (.finite s m e h)) = _
  have hbias : (Format.binary64.exponentBias : Int) = 1023 := rfl
  have hlog : m.log2 + 1 = Format.binary64.mantissaBits := by rw [log2_eq hlow hhigh]; rfl
  rw [pack]
  dsimp only
  rw [if_neg (by omega), if_pos hlog, unpack]
  simp only [unpackMantissa_packComponents, unpackExponent_packComponents,
    unpackSign_packComponents, Sign.ofBitVec_toBitVec]
  rw [if_neg (ofNat_ne_ones (by omega)), if_neg (ofNat_ne_zero (by omega) (by omega))]
  simp only [toNat_one_append hlow hhigh, BitVec.toNat_ofNat, UnpackedFloat.finite.injEq, true_and]
  omega

/-! ## Finite doubles -/

/-- A double is finite unless it is no number or an infinite one. -/
theorem isFinite_eq_false (x : Float) :
    x.isFinite = false ↔ x.isNaN = true ∨ x.isInf = true := by
  show UnpackedFloat.isFinite x.toModel.unpack = false ↔
    UnpackedFloat.isNaN x.toModel.unpack = true ∨ UnpackedFloat.isInf x.toModel.unpack = true
  cases x.toModel.unpack with
  | infinity s => simp [UnpackedFloat.isFinite, UnpackedFloat.isNaN, UnpackedFloat.isInf]
  | notANumber => simp [UnpackedFloat.isFinite, UnpackedFloat.isNaN, UnpackedFloat.isInf]
  | zero s => simp [UnpackedFloat.isFinite, UnpackedFloat.isNaN, UnpackedFloat.isInf]
  | finite s m e h => simp [UnpackedFloat.isFinite, UnpackedFloat.isNaN, UnpackedFloat.isInf]

/-- The opposite of a finite double is finite. -/
theorem isFinite_neg {x : Float} (h : x.isFinite = true) : (-x).isFinite = true := by
  have h' : UnpackedFloat.isFinite x.toModel.unpack = true := h
  show (Float.Model.pack x.toModel.unpack.neg).isFinite = true
  cases hx : x.toModel.unpack with
  | infinity s =>
      rw [hx] at h'
      cases h'
  | notANumber =>
      rw [hx] at h'
      cases h'
  | zero s => cases s <;> decide
  | finite s m e hm =>
      rw [UnpackedFloat.neg, isFinite_pack_finite, decide_eq_true (exponent_le_of_unpack hx)]

/-- Whether a double with all its 53 bits is at least a number less the error of one rounding. -/
def Covers (x : Float) (q : ℚ) : Prop :=
  ∃ m e h, x.toModel.unpack = .finite .positive m e h ∧ 2 ^ 52 ≤ m ∧
    q * 2 ^ 52 ≤ value (m * (2 ^ 52 + 1)) e

/-- A whole number is rounded to a double that covers it. -/
theorem covers_toFloat {n : Nat} (hn : n ≠ 0) (hlt : n < 2 ^ 64) : Covers n.toUInt64.toFloat n := by
  have hlog : n.log2 < 64 := (Nat.log2_lt hn).mpr hlt
  have hint : compare (n : Int) 0 = .gt := by
    rw [Int.compare_eq_gt]
    omega
  have hnat : n.toUInt64.toNat = n := by
    rw [Nat.toUInt64_eq, UInt64.toNat_ofNat']
    exact Nat.mod_eq_of_lt hlt
  -- The number is first given bits enough, so that rounding drops the rest.
  let k := 52 - n.log2
  have hround : n.toUInt64.toFloat.toModel =
      Float.Model.pack (roundWithAccuracy .binary64 .positive (n <<< k) (-(k : Int)) .exact) := by
    show Float.Model.pack
      (UnpackedFloat.normalize .binary64 (n.toUInt64.toNat : Int) 0 .positive) = _
    rw [hnat, UnpackedFloat.normalize, hint]
    dsimp only
    rw [UnpackedFloat.round, decreaseExponent, targetExponent_eq, Int.toNat_natCast]
    have hk : (0 - max ((n.log2 : Int) + 0 - 52) (-1074)).toNat = k := by omega
    rw [hk, Int.zero_sub]
  have hlong : (n <<< k).log2 = n.log2 + k := by
    rw [Nat.shiftLeft_eq, Nat.log2_eq_iff (by positivity), Nat.pow_add, Nat.add_right_comm,
      Nat.pow_add]
    exact ⟨Nat.mul_le_mul_right _ (Nat.log2_self_le hn),
      Nat.mul_lt_mul_of_pos_right Nat.lt_log2_self (Nat.two_pow_pos k)⟩
  obtain ⟨m, e, h, hresult, hlow, hhigh, he, he', hvalue⟩ :=
    roundWithAccuracy_long .positive (m := n <<< k) (e := -(k : Int)) (by omega) (by omega)
  refine ⟨m, e, h, ?_, hlow, ?_⟩
  · rw [hround, hresult, unpack_pack_normal h hlow hhigh (by omega) (by omega)]
  · refine le_trans (le_of_eq ?_) hvalue
    rw [Nat.shiftLeft_eq, Nat.mul_right_comm, ← value_add, Int.add_left_neg, value, zpow_zero,
      mul_one]
    push_cast
    rfl

/-- The least power of two that is past all doubles. -/
def limit : ℚ := 2 ^ (1024 : Int)

theorem limit_pos : 0 < limit := zpow_pos two_pos 1024

theorem lt_limit : (2 : ℚ) ^ 64 * 10 ^ 288 < limit := by
  have hnat : 2 ^ 64 * 10 ^ 288 < 2 ^ 1024 := by decide +kernel
  have hcast : ((2 ^ 64 * 10 ^ 288 : Nat) : ℚ) < (2 ^ 1024 : Nat) := Nat.cast_lt.mpr hnat
  rw [Nat.cast_mul, Nat.cast_pow, Nat.cast_pow, Nat.cast_pow] at hcast
  exact hcast

/-- A product that leaves the range is not finite. -/
theorem not_isFinite_mul {x y : Float} {p q : ℚ} (hx : Covers x p) (hy : Covers y q)
    (hq : 0 < q) (hlarge : limit * (2 ^ 52 + 1) ^ 2 ≤ p * q * (2 ^ 52) ^ 2) :
    (x * y).isFinite = false := by
  obtain ⟨m₁, e₁, h₁, hx, hlow₁, hle₁⟩ := hx
  obtain ⟨m₂, e₂, h₂, hy, hlow₂, hle₂⟩ := hy
  have hproduct : limit ≤ value (m₁ * m₂) (e₁ + e₂) := by
    have hboth : p * q * (2 ^ 52) ^ 2 ≤ value (m₁ * m₂) (e₁ + e₂) * (2 ^ 52 + 1) ^ 2 := by
      calc
        p * q * (2 ^ 52) ^ 2 = p * 2 ^ 52 * (q * 2 ^ 52) := by ring
        _ ≤ value (m₁ * (2 ^ 52 + 1)) e₁ * value (m₂ * (2 ^ 52 + 1)) e₂ :=
            mul_le_mul hle₁ hle₂ (by positivity) (value_nonneg _ _)
        _ = value (m₁ * m₂) (e₁ + e₂) * (2 ^ 52 + 1) ^ 2 := by
            simp only [value, zpow_add₀ (two_ne_zero' ℚ)]
            push_cast
            ring
    have hfactor : (0 : ℚ) < (2 ^ 52 + 1) ^ 2 := by norm_num
    exact le_of_mul_le_mul_right (hlarge.trans hboth) hfactor
  have hpos : 0 < m₁ * m₂ := Nat.mul_pos h₁ h₂
  -- So the product has its first bit past the range.
  have hlog : (1024 : Int) ≤ (m₁ * m₂).log2 + (e₁ + e₂) := le_log2_of_le_value hproduct
  have hlong : 52 ≤ (m₁ * m₂).log2 := by
    rw [Nat.le_log2 (by omega)]
    exact Nat.le_trans hlow₁ (Nat.le_mul_of_pos_right m₁ h₂)
  obtain ⟨m, e, h, hresult, -, -, he, -, -⟩ :=
    roundWithAccuracy_long (.positive * .positive) (m := m₁ * m₂) (e := e₁ + e₂) hlong (by omega)
  show (Float.Model.pack (UnpackedFloat.mul .binary64 x.toModel.unpack y.toModel.unpack)).isFinite =
    false
  rw [hx, hy, UnpackedFloat.mul, hresult, isFinite_pack_finite]
  exact decide_eq_false (by omega)

/-- A double that covers a number is not zero. -/
theorem Covers.ne_zero {x : Float} {q : ℚ} (h : Covers x q) : (x == 0) = false := by
  obtain ⟨m, e, hm, hx, -⟩ := h
  have hzero : (0 : Float).toModel.unpack = .zero .positive := rfl
  show UnpackedFloat.beq x.toModel.unpack (0 : Float).toModel.unpack = false
  rw [hx, hzero]
  rfl

/-- Whether a double covers a power of ten, with the powers of two on both sides multiplied out. -/
def coversPower (x : Float) (k : Nat) : Bool :=
  match x.toModel.unpack with
  | .finite .positive m e _ =>
    decide (-52 ≤ e) && decide (2 ^ 52 ≤ m) &&
      decide (10 ^ k * 2 ^ 52 * 2 ^ 52 ≤ m * (2 ^ 52 + 1) * 2 ^ (e + 52).toNat)
  | _ => false

theorem covers_of_coversPower {x : Float} {k : Nat} (h : coversPower x k = true) :
    Covers x (10 ^ k) := by
  rw [coversPower] at h
  split at h
  next m e hm hx =>
      simp only [Bool.and_eq_true, decide_eq_true_eq] at h
      obtain ⟨⟨he, hlow⟩, hle⟩ := h
      refine ⟨m, e, hm, hx, hlow, ?_⟩
      have hexp : e = -52 + ((e + 52).toNat : Int) := by omega
      have hvalue := value_mono hle (-52)
      have hunit : (2 : ℚ) ^ 52 * 2 ^ (-52 : Int) = 1 := by norm_num
      rw [hexp, value_add]
      refine le_trans (le_of_eq ?_) hvalue
      rw [value, Nat.cast_mul, Nat.cast_mul, mul_assoc, Nat.cast_pow, Nat.cast_pow, Nat.cast_ofNat,
        Nat.cast_ofNat, hunit, mul_one]
  next => cases h

/-- The powers of ten that take a significand out of the range are covered. -/
theorem coversPower_large :
    ∀ i < 20, coversPower (Json.Number.powerOfTen (289 + i)) (289 + i) = true := by decide +kernel

theorem covers_powerOfTen {k : Nat} (h : 289 ≤ k) (h' : k ≤ 308) :
    Covers (Json.Number.powerOfTen k) (10 ^ k) := by
  obtain ⟨i, rfl⟩ := Nat.exists_eq_add_of_le h
  exact covers_of_coversPower (coversPower_large i (by omega))

end RemoteInput.Double

namespace RemoteInput.Json.Number

open Double

/-- A significand and a power of ten that are out of the range by more than two roundings are not
scaled to a finite double. -/
theorem scale_eq_none {n : Nat} {e : Int} (hn : n < 2 ^ 64)
    (h : limit * (2 ^ 52 + 1) ^ 2 ≤ n * 10 ^ e * (2 ^ 52) ^ 2) : scale n e = none := by
  have hpos : 0 < limit * (2 ^ 52 + 1) ^ 2 := mul_pos limit_pos (by norm_num)
  have hzero : n ≠ 0 := by
    rintro rfl
    rw [Nat.cast_zero, zero_mul, zero_mul] at h
    exact absurd h (not_le.mpr hpos)
  -- No significand makes up for a smaller power of ten.
  have he : 289 ≤ e := by
    by_contra hsmall
    have hpow : (10 : ℚ) ^ e ≤ 10 ^ 288 := by
      rw [← zpow_natCast]
      exact zpow_le_zpow_right₀ (by norm_num) (by push_cast; omega)
    have hcast : (n : ℚ) ≤ 2 ^ 64 := by exact_mod_cast hn.le
    have hprod : (n : ℚ) * 10 ^ e ≤ 2 ^ 64 * 10 ^ 288 := by gcongr
    have hscaled : (n : ℚ) * 10 ^ e * (2 ^ 52) ^ 2 ≤ 2 ^ 64 * 10 ^ 288 * (2 ^ 52) ^ 2 := by gcongr
    have hless : (2 : ℚ) ^ 64 * 10 ^ 288 * (2 ^ 52) ^ 2 < limit * (2 ^ 52) ^ 2 :=
      mul_lt_mul_of_pos_right lt_limit (by norm_num)
    have hstep : limit * (2 ^ 52) ^ 2 < limit * (2 ^ 52 + 1) ^ 2 :=
      mul_lt_mul_of_pos_left (by norm_num) limit_pos
    exact absurd (h.trans hscaled) (not_le.mpr (hless.trans hstep))
  obtain ⟨k, rfl⟩ := Int.eq_ofNat_of_zero_le (show 0 ≤ e by omega)
  have hx := covers_toFloat hzero hn
  rw [scale, if_neg (by omega), Int.natAbs_natCast, multiply]
  split
  next hrange =>
      have hinf := not_isFinite_mul hx (covers_powerOfTen (by omega) hrange) (by positivity) h
      rw [Option.filter_some, hinf]
      rfl
  next =>
      rw [hx.ne_zero]
      rfl

end RemoteInput.Json.Number
