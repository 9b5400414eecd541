import Mathlib.Data.List.Basic
import Mathlib.Data.List.Induction
import RemoteInput.Text.Digits

/-!
# The numbers that digits stand for

A number only grows while its digits are read.  So reading below a bound, which gives up at
the first digit that passes it, gives the number of all digits when that lies below the
bound, and nothing otherwise (`valueBelow?_eq_some`).

Decimal digits without a zero in front are the digits of the number that they stand for
(`toDigits_value`), so there is one way to write a number like this.  Hexadecimal digits stand for
a number that their count bounds (`value_lt_pow_length`).
-/

namespace RemoteInput

namespace Digits

variable {bound base : Nat}

/-- The number after one more digit. -/
def step (base n : Nat) (c : Char) : Nat := n * base + (hexValue? c).getD 0

theorem le_foldl_step (hbase : 0 < base) (digits : List Char) (n : Nat) :
    n ≤ digits.foldl (step base) n := by
  induction digits generalizing n with
  | nil => exact Nat.le_refl n
  | cons c digits ih =>
      have hstep : n ≤ step base n c :=
        Nat.le_trans (Nat.le_mul_of_pos_right n hbase) (Nat.le_add_right _ _)
      exact Nat.le_trans hstep (ih _)

theorem foldlM_step (hbase : 0 < base) (digits : List Char) {start : Nat} (hstart : start < bound)
    (n : Nat) :
    digits.foldlM (fun n c => if step base n c < bound then some (step base n c) else none) start =
      some n ↔ digits.foldl (step base) start = n ∧ n < bound := by
  induction digits generalizing start with
  | nil =>
      constructor
      · intro h
        obtain rfl := Option.some.inj h
        exact ⟨rfl, hstart⟩
      · rintro ⟨rfl, -⟩
        rfl
  | cons c digits ih =>
      rw [List.foldlM_cons, List.foldl_cons]
      by_cases h : step base start c < bound
      · rw [if_pos h]
        exact ih h
      · rw [if_neg h]
        constructor
        · intro hnone
          cases hnone
        · rintro ⟨hn, hlt⟩
          have hle := le_foldl_step hbase digits (step base start c)
          omega

/-- Reading below a bound gives the number of the digits if it lies below the bound. -/
theorem valueBelow?_eq_some (hbase : 0 < base) (hbound : 0 < bound) {digits : List Char} {n : Nat} :
    valueBelow? bound base digits = some n ↔ value base digits = n ∧ n < bound :=
  foldlM_step hbase digits hbound n

end Digits

namespace Decimal

/-! ## The digits of a number -/

theorem toDigits_cons (n : Nat) : ∃ c cs, Nat.toDigits 10 n = c :: cs :=
  List.exists_cons_of_ne_nil Nat.toDigits_ne_nil

theorem isDigit_toDigits (n : Nat) : ∀ c ∈ Nat.toDigits 10 n, c.isDigit = true :=
  fun _ hc => Nat.isDigit_of_mem_toDigits (by decide) (by decide) hc

/-- The digits of a number other than zero start with no zero. -/
theorem head_toDigits {n : Nat} (hn : n ≠ 0) {c : Char} {cs : List Char}
    (h : Nat.toDigits 10 n = c :: cs) : c ≠ '0' := by
  induction n using Nat.strongRecOn generalizing cs with
  | ind n ih =>
      rw [Nat.toDigits_eq_if (by decide)] at h
      split at h
      · next hlt =>
        cases h
        rw [Ne, ← Char.toNat_inj, Nat.toNat_digitChar_of_lt_ten hlt]
        have : '0'.toNat = 48 := rfl
        omega
      · obtain ⟨c', cs', hcs'⟩ := toDigits_cons (n / 10)
        rw [hcs', List.cons_append] at h
        cases h
        exact ih (n / 10) (by omega) (by omega) hcs'

/-- A zero in front stands alone. -/
theorem tail_toDigits {n : Nat} {c : Char} {cs : List Char} (h : Nat.toDigits 10 n = c :: cs)
    (hc : c = '0') : n = 0 ∧ cs = [] := by
  by_cases hn : n = 0
  · rw [hn] at h
    cases h
    exact ⟨hn, rfl⟩
  · exact absurd hc (head_toDigits hn h)

end Decimal

namespace Digits

/-! ## Decimal digits -/

theorem hexValue?_of_isDigit {c : Char} (h : c.isDigit = true) :
    (hexValue? c).getD 0 = c.toNat - '0'.toNat := by
  rw [hexValue?, if_pos h]
  rfl

/-- The number of decimal digits, as the core library has it. -/
theorem value_eq_ofDigitChars {digits : List Char} (h : ∀ c ∈ digits, c.isDigit = true) :
    value 10 digits = Nat.ofDigitChars 10 digits 0 := by
  rw [value, Nat.ofDigitChars]
  refine List.foldl_ext _ _ _ fun n c hc => ?_
  rw [hexValue?_of_isDigit (h c hc), Nat.mul_comm]

theorem value_toDigits (n : Nat) : value 10 (Nat.toDigits 10 n) = n := by
  rw [value_eq_ofDigitChars (Decimal.isDigit_toDigits n), Nat.ofDigitChars_ten_toDigits]

theorem value_concat (base : Nat) (digits : List Char) (c : Char) :
    value base (digits ++ [c]) = value base digits * base + (hexValue? c).getD 0 := by
  rw [value, List.foldl_append]
  rfl

/-- Digits with no zero in front are those of their number. -/
theorem toDigits_value {digits : List Char} (hne : digits ≠ [])
    (hdigits : ∀ c ∈ digits, c.isDigit = true)
    (hzero : digits.head? = some '0' → digits.length = 1) :
    Nat.toDigits 10 (value 10 digits) = digits := by
  induction digits using List.reverseRecOn with
  | nil => exact absurd rfl hne
  | append_singleton digits c ih =>
      have hc : c.isDigit = true := hdigits c (by simp)
      obtain ⟨hleast, hgreatest⟩ := Char.isDigit_iff_toNat.mp hc
      have hlt : c.toNat - '0'.toNat < 10 := by
        have hnine : '9'.toNat = '0'.toNat + 9 := rfl
        omega
      have hlast : Nat.toDigits 10 (c.toNat - '0'.toNat) = [c] := by
        have hcode : '0'.toNat = 48 := rfl
        rw [Nat.toDigits_of_lt_base hlt, List.singleton_inj, ← Char.toNat_inj,
          Nat.toNat_digitChar_of_lt_ten hlt]
        omega
      rw [value_concat, hexValue?_of_isDigit hc]
      by_cases hnil : digits = []
      · subst hnil
        rw [show value 10 [] = 0 from rfl, Nat.zero_mul, Nat.zero_add, hlast]
        rfl
      · have hhead : digits.head? ≠ some '0' := by
          intro h
          have hlength := hzero (by rw [List.head?_append, h, Option.some_or])
          have hpos := List.length_pos_of_ne_nil hnil
          rw [List.length_append, List.length_singleton] at hlength
          omega
        have hinit : Nat.toDigits 10 (value 10 digits) = digits :=
          ih hnil (fun d hd => hdigits d (by simp [hd])) fun h => absurd h hhead
        have hpos : 0 < value 10 digits := by
          refine Nat.pos_of_ne_zero fun h => hhead ?_
          rw [← hinit, h]
          rfl
        rw [Nat.mul_comm, ← Nat.toDigits_append_toDigits (by decide) hpos hlt, hinit, hlast]

/-! ## Hexadecimal digits -/

theorem hexValue?_lt {c : Char} {n : Nat} (h : hexValue? c = some n) : n < 16 := by
  unfold hexValue? at h
  split at h
  · next hdigit =>
    obtain ⟨-, hle⟩ := Char.isDigit_iff_toNat.mp hdigit
    cases h
    have hnine : '9'.toNat = 57 := rfl
    omega
  · split at h
    · next hlower =>
      have hle : c.toNat ≤ 'f'.toNat :=
        UInt32.le_iff_toNat_le.mp (of_decide_eq_true (Bool.and_eq_true_iff.mp hlower).2)
      cases h
      have hf : 'f'.toNat = 102 := rfl
      omega
    · split at h
      · next hupper =>
        have hle : c.toNat ≤ 'F'.toNat :=
          UInt32.le_iff_toNat_le.mp (of_decide_eq_true (Bool.and_eq_true_iff.mp hupper).2)
        cases h
        have hf : 'F'.toNat = 70 := rfl
        omega
      · cases h

/-- The number of hexadecimal digits lies below the power of sixteen for them. -/
theorem value_lt_pow_length (digits : List Char) : value 16 digits < 16 ^ digits.length := by
  induction digits using List.reverseRecOn with
  | nil => decide
  | append_singleton digits c ih =>
      have hc : (hexValue? c).getD 0 < 16 := by
        cases hvalue : hexValue? c with
        | none => decide
        | some n => exact hexValue?_lt hvalue
      rw [value_concat, List.length_append, List.length_singleton, Nat.pow_succ]
      omega

end Digits

end RemoteInput
