import RemoteInput.Proofs.Printed
import RemoteInput.Proofs.Shortest

/-!
# What a printed number is read back as

The reader takes all digits of a printed number in, so what it scales is what
was printed (`unsigned_write`).  For the most part these are the digits and the
power of ten of the shortest decimal.  Only a whole number with its point in
place is printed with a zero after the point.  The reader takes that zero in as
well, and divides by ten.

So whether a printed double is read back as itself is a question of one
multiplication or division in doubles (`Encode.reread_eq_scale`).
-/

namespace RemoteInput

namespace Json.Number

/-! ## Digits -/

/-- Whether digits end before some bytes. -/
def DigitsEnd (rest : Bytes) : Prop := ∀ b ∈ rest.head?, Ascii.isDigit b = false

theorem digitsEnd_nil : DigitsEnd [] := by
  intro b hb
  cases hb

theorem digitsEnd_cons {b : UInt8} (hb : Ascii.isDigit b = false) (s : Bytes) :
    DigitsEnd (b :: s) := by
  intro b' hb'
  rw [List.head?_cons, Option.mem_some_iff] at hb'
  rwa [← hb']

/-- A digit is one byte, of the same value. -/
theorem encode_digit {c : Char} (h : c.isDigit = true) (cs : List Char) :
    ∃ b, Utf8.encode (c :: cs) = b :: Utf8.encode cs ∧ Ascii.isDigit b = true ∧
      Ascii.digitValue b = c.toNat - '0'.toNat ∧ (b = Ascii.zero ↔ c = '0') := by
  have hrange : 48 ≤ c.toNat ∧ c.toNat ≤ 57 := by
    simpa [Char.isDigit, UInt32.le_iff_toNat_le] using h
  have hbyte : (UInt8.ofNat c.toNat).toNat = c.toNat := by
    rw [UInt8.toNat_ofNat']
    omega
  refine ⟨UInt8.ofNat c.toNat, ?_, ?_, ?_, ?_⟩
  · rw [Utf8.encode_cons, Utf8.encodeChar_ascii (by omega)]
    rfl
  · simp only [Ascii.isDigit, Bool.and_eq_true, decide_eq_true_eq, UInt8.le_iff_toNat_le, hbyte]
    exact hrange
  · rw [Ascii.digitValue, hbyte]
    rfl
  · rw [← UInt8.toNat_inj, hbyte, ← Char.toNat_inj]
    exact Iff.rfl

theorem le_ofDigitChars (cs : List Char) (n : Nat) : n ≤ Nat.ofDigitChars 10 cs n := by
  rw [Nat.ofDigitChars_eq_ofDigitChars_zero]
  exact Nat.le_trans (Nat.le_mul_of_pos_left n (Nat.pow_pos (by decide))) (Nat.le_add_right ..)

section Digits

variable {cs : List Char} {rest : Bytes}

/-- Digits that fit are all taken in. -/
theorem takeDigits_digits (h : ∀ c ∈ cs, c.isDigit = true) (hrest : DigitsEnd rest)
    (n taken : Nat) (hfit : Nat.ofDigitChars 10 cs n ≤ maxSignificand) :
    takeDigits n taken (Utf8.encode cs ++ rest) =
      (Nat.ofDigitChars 10 cs n, taken + cs.length, rest) := by
  induction cs generalizing n taken with
  | nil =>
      cases rest with
      | nil => rfl
      | cons b s => simp [Utf8.encode_nil, takeDigits, hrest b rfl]
  | cons c cs ih =>
      obtain ⟨b, hencode, hdigit, hvalue, -⟩ := encode_digit (h c (List.mem_cons_self ..)) cs
      rw [Nat.ofDigitChars_cons, ← hvalue, Nat.mul_comm 10 n] at hfit ⊢
      have hle := Nat.le_trans (le_ofDigitChars cs _) hfit
      rw [hencode, List.cons_append, takeDigits, hdigit, decide_eq_true hle, Bool.and_true,
        if_pos rfl, ih (fun c hc => h c (List.mem_cons_of_mem _ hc)) _ _ hfit, List.length_cons,
        Nat.add_assoc, Nat.add_comm 1]

/-- The digits of an exponent that fits are all read. -/
theorem exponentDigits_digits (h : ∀ c ∈ cs, c.isDigit = true) (n : Nat)
    (hfit : Nat.ofDigitChars 10 cs n ≤ maxExponent) :
    exponentDigits n (Utf8.encode cs) = (some (Nat.ofDigitChars 10 cs n), []) := by
  induction cs generalizing n with
  | nil => rfl
  | cons c cs ih =>
      obtain ⟨b, hencode, hdigit, hvalue, -⟩ := encode_digit (h c (List.mem_cons_self ..)) cs
      rw [Nat.ofDigitChars_cons, ← hvalue, Nat.mul_comm 10 n] at hfit ⊢
      have hle := Nat.le_trans (le_ofDigitChars cs _) hfit
      rw [hencode, exponentDigits, if_pos hdigit, if_pos hle]
      exact ih (fun c hc => h c (List.mem_cons_of_mem _ hc)) _ hfit

theorem dropDigits_none (hrest : DigitsEnd rest) (dropped : Nat) :
    dropDigits dropped rest = (dropped, rest) := by
  cases rest with
  | nil => rfl
  | cons b s => simp [dropDigits, hrest b rfl]

/-! ## The parts of a printed number -/

/-- A whole part with no zero in front is taken in as its digits. -/
theorem wholePart_digits {c : Char} (h : ∀ d ∈ c :: cs, d.isDigit = true)
    (hzero : c = '0' → cs = []) (hrest : DigitsEnd rest)
    (hfit : Nat.ofDigitChars 10 (c :: cs) 0 ≤ maxSignificand) :
    wholePart (Utf8.encode (c :: cs) ++ rest) =
      .ok (⟨Nat.ofDigitChars 10 (c :: cs) 0, 0⟩, rest) := by
  obtain ⟨b, hencode, hdigit, hvalue, hiff⟩ := encode_digit (h c (List.mem_cons_self ..)) cs
  rw [hencode, List.cons_append]
  by_cases hc : c = '0'
  · rw [hzero hc, hc, Utf8.encode_nil, List.nil_append, hiff.mpr hc]
    cases rest with
    | nil => rfl
    | cons b s => simp [wholePart, hrest b rfl, Nat.ofDigitChars_cons]
  · have hb : (b == Ascii.zero) = false := by simp [hiff, hc]
    rw [Nat.ofDigitChars_cons, ← hvalue, Nat.mul_zero, Nat.zero_add] at hfit ⊢
    have htake := takeDigits_digits (fun c hc => h c (List.mem_cons_of_mem _ hc)) hrest
      (Ascii.digitValue b) 0 hfit
    simp [wholePart, hb, hdigit, htake, dropDigits_none hrest]

/-- A fraction is taken in as its digits, each of which takes one from the power of ten. -/
theorem fraction_digits {c : Char} (h : ∀ d ∈ c :: cs, d.isDigit = true) (hrest : DigitsEnd rest)
    (parts : Parts) (hfit : Nat.ofDigitChars 10 (c :: cs) parts.significand ≤ maxSignificand) :
    fraction parts (Ascii.point :: (Utf8.encode (c :: cs) ++ rest)) =
      .ok (⟨Nat.ofDigitChars 10 (c :: cs) parts.significand,
        parts.exponent - (c :: cs).length⟩, rest) := by
  have htake := takeDigits_digits h hrest parts.significand 0 hfit
  obtain ⟨b, hencode, hdigit, -, -⟩ := encode_digit (h c (List.mem_cons_self ..)) cs
  rw [hencode, List.cons_append] at htake ⊢
  rw [fraction_point, if_pos hdigit, htake, dropDigits_none hrest, Nat.zero_add]

/-- A number without a fraction. -/
theorem unsigned_whole {c : Char} (h : ∀ d ∈ c :: cs, d.isDigit = true)
    (hzero : c = '0' → cs = []) (hfit : Nat.ofDigitChars 10 (c :: cs) 0 ≤ maxSignificand)
    {b : UInt8} (hdigit : Ascii.isDigit b = false) (hpoint : b ≠ Ascii.point) (s : Bytes) :
    unsigned (Utf8.encode (c :: cs) ++ b :: s) =
      exponentPart ⟨Nat.ofDigitChars 10 (c :: cs) 0, 0⟩ (b :: s) := by
  rw [unsigned, wholePart_digits h hzero (digitsEnd_cons hdigit s) hfit]
  show (fraction _ (b :: s) >>= fun r => exponentPart r.1 r.2) = _
  rw [fraction_other hpoint]
  rfl

/-- A number with a fraction. -/
theorem unsigned_point {c : Char} {ds : List Char} (h : ∀ e ∈ c :: cs, e.isDigit = true)
    (hzero : c = '0' → cs = []) (h' : ∀ e ∈ ds, e.isDigit = true) (hne : ds ≠ [])
    (hrest : DigitsEnd rest) (hfit : Nat.ofDigitChars 10 (c :: cs ++ ds) 0 ≤ maxSignificand) :
    unsigned (Utf8.encode (c :: cs ++ '.' :: ds) ++ rest) =
      exponentPart ⟨Nat.ofDigitChars 10 (c :: cs ++ ds) 0, -(ds.length : Int)⟩ rest := by
  obtain ⟨d, ds, rfl⟩ := List.exists_cons_of_ne_nil hne
  have hencode : Utf8.encode (c :: cs ++ '.' :: d :: ds) ++ rest =
      Utf8.encode (c :: cs) ++ Ascii.point :: (Utf8.encode (d :: ds) ++ rest) := by
    rw [Utf8.encode_append, List.append_assoc]
    rfl
  rw [Nat.ofDigitChars_append] at hfit ⊢
  have hwhole := Nat.le_trans (le_ofDigitChars (d :: ds) _) hfit
  rw [hencode, unsigned, wholePart_digits h hzero (digitsEnd_cons rfl _) hwhole]
  show (fraction _ _ >>= fun r => exponentPart r.1 r.2) = _
  rw [fraction_digits h' hrest _ hfit]
  show exponentPart ⟨_, 0 - _⟩ rest = _
  rw [Int.zero_sub]

end Digits

/-- An exponent part with its sign and no zero in front. -/
theorem exponentPart_written (parts : Parts) (negative : Bool) {n : Nat} (hfit : n ≤ maxExponent) :
    exponentPart parts
        (0x65 :: (if negative then Ascii.minus else Ascii.plus) ::
          Utf8.encode (Nat.toDigits 10 n)) =
      finish (parts.shift negative n) [] := by
  obtain ⟨c, cs, hcs⟩ := Decimal.toDigits_cons n
  have hdigits : ∀ d ∈ c :: cs, d.isDigit = true := fun d hd =>
    Decimal.isDigit_toDigits n d (hcs ▸ hd)
  obtain ⟨b, hencode, hdigit, hvalue, -⟩ := encode_digit (hdigits c (List.mem_cons_self ..)) cs
  have hn : Nat.ofDigitChars 10 cs (Ascii.digitValue b) = n := by
    rw [hvalue, ← Nat.zero_add (c.toNat - '0'.toNat), ← Nat.mul_zero 10,
      ← Nat.ofDigitChars_cons, ← hcs, Nat.ofDigitChars_ten_toDigits]
  have hread : ∀ negative,
      signedExponent parts negative (b :: Utf8.encode cs) = finish (parts.shift negative n) [] := by
    intro negative
    have hdigits' := exponentDigits_digits (fun d hd => hdigits d (List.mem_cons_of_mem _ hd))
      (Ascii.digitValue b) (by rwa [hn])
    rw [signedExponent, if_pos hdigit, hdigits', hn]
  rw [hcs, hencode, exponentPart_cons]
  cases negative with
  | false => exact hread false
  | true => exact hread true

end Json.Number

/-! ## The parts of a decimal -/

namespace Decimal

open Json.Number

/-- What a printed decimal is taken apart into.  A whole number below `10^16` is printed with a zero
after its point. -/
def parts (d : Decimal) : Parts :=
  if 0 ≤ d.exponent ∧ d.digits * 10 ^ d.exponent.toNat < 10 ^ 16 then
    ⟨d.digits * 10 ^ (d.exponent.toNat + 1), -1⟩
  else ⟨d.digits, d.exponent⟩

theorem isDigit_zero : ∀ c ∈ ['0'], c.isDigit = true := by simp

theorem isDigit_zeros (k : Nat) : ∀ c ∈ List.replicate k '0', c.isDigit = true := by
  intro c hc
  rw [(List.mem_replicate.mp hc).2]
  rfl

theorem lt_pow_length (n : Nat) : n < 10 ^ (Nat.toDigits 10 n).length :=
  (Nat.length_toDigits_le_iff (by decide) Nat.length_toDigits_pos).mp (Nat.le_refl _)

/-- A number has at least as many digits as the power of ten that it reaches. -/
theorem pow_le_of_lt_length {n k : Nat} (hn : n ≠ 0) (hk : k < (Nat.toDigits 10 n).length) :
    10 ^ k ≤ n := by
  cases k with
  | zero => exact Nat.pos_of_ne_zero hn
  | succ k =>
      refine Nat.le_of_not_lt fun hlt => ?_
      have := (Nat.length_toDigits_le_iff (by decide) (Nat.succ_pos k)).mpr hlt
      omega

/-- A whole number with its point in place is small. -/
theorem digits_mul_lt {d : Decimal} (h : 0 ≤ d.exponent)
    (hplace : d.exponent + (Nat.toDigits 10 d.digits).length ≤ 16) :
    d.digits * 10 ^ d.exponent.toNat < 10 ^ 16 :=
  calc d.digits * 10 ^ d.exponent.toNat
      < 10 ^ (Nat.toDigits 10 d.digits).length * 10 ^ d.exponent.toNat :=
        Nat.mul_lt_mul_of_pos_right (lt_pow_length _) (Nat.pow_pos (by decide))
    _ = 10 ^ ((Nat.toDigits 10 d.digits).length + d.exponent.toNat) := (Nat.pow_add ..).symm
    _ ≤ 10 ^ 16 := Nat.pow_le_pow_right (by decide) (by omega)

theorem parts_of_neg {d : Decimal} (h : d.exponent < 0) : d.parts = ⟨d.digits, d.exponent⟩ := by
  rw [parts, if_neg fun hwhole => absurd hwhole.1 (by omega)]

/-- A decimal whose point is not put in place is taken apart as it is. -/
theorem parts_of_length {d : Decimal} (h : d.Fits)
    (hlength : d.exponent + (Nat.toDigits 10 d.digits).length < 1 ∨
      16 < d.exponent + (Nat.toDigits 10 d.digits).length) :
    d.parts = ⟨d.digits, d.exponent⟩ := by
  have hpos := Nat.length_toDigits_pos (n := d.digits) (b := 10)
  by_cases hexponent : d.exponent < 0
  · exact parts_of_neg hexponent
  · have hdigits : d.digits ≠ 0 := by
      intro hzero
      rw [h.exponent_eq_zero hzero, hzero] at hlength
      exact absurd hlength (by decide)
    have hlarge : 10 ^ 16 ≤ d.digits * 10 ^ d.exponent.toNat :=
      calc 10 ^ 16
          ≤ 10 ^ ((Nat.toDigits 10 d.digits).length - 1 + d.exponent.toNat) :=
            Nat.pow_le_pow_right (by decide) (by omega)
        _ = 10 ^ ((Nat.toDigits 10 d.digits).length - 1) * 10 ^ d.exponent.toNat :=
            Nat.pow_add ..
        _ ≤ d.digits * 10 ^ d.exponent.toNat :=
            Nat.mul_le_mul_right _ (pow_le_of_lt_length hdigits (by omega))
    rw [parts, if_neg fun hwhole => absurd hwhole.2 (by omega)]

/-! ## Layouts -/

section Layouts

variable {n : Nat}

/-- A zero before the point, zeros and digits after it. -/
theorem unsigned_leading (k : Nat) (hfit : n ≤ maxSignificand) :
    unsigned (Utf8.encode (['0', '.'] ++ List.replicate k '0' ++ Nat.toDigits 10 n)) =
      finish ⟨n, -((k + (Nat.toDigits 10 n).length : Nat) : Int)⟩ [] := by
  have hsame : Nat.ofDigitChars 10 (['0'] ++ (List.replicate k '0' ++ Nat.toDigits 10 n)) 0 =
      n := by
    rw [Nat.ofDigitChars_append, Nat.ofDigitChars_append, Nat.ofDigitChars_replicate_zero,
      show Nat.ofDigitChars 10 ['0'] 0 = 0 from rfl, Nat.mul_zero, Nat.ofDigitChars_ten_toDigits]
  have hdigits : ∀ c ∈ List.replicate k '0' ++ Nat.toDigits 10 n, c.isDigit = true :=
    fun c hc => (List.mem_append.mp hc).elim (isDigit_zeros k c) (isDigit_toDigits n c)
  have hread := unsigned_point isDigit_zero (fun _ => rfl) hdigits (by simp) digitsEnd_nil
    (Nat.le_trans (Nat.le_of_eq hsame) hfit)
  rwa [List.append_nil, hsame, List.length_append, List.length_replicate] at hread

/-- Digits and zeros before the point, a zero after it. -/
theorem unsigned_trailing (k : Nat) (hn : n = 0 → k = 0)
    (hfit : n * 10 ^ (k + 1) ≤ maxSignificand) :
    unsigned (Utf8.encode (Nat.toDigits 10 n ++ List.replicate k '0' ++ ['.', '0'])) =
      finish ⟨n * 10 ^ (k + 1), -1⟩ [] := by
  have hmoved : Nat.ofDigitChars 10 (Nat.toDigits 10 n ++ List.replicate k '0' ++ ['0']) 0 =
      n * 10 ^ (k + 1) := by
    rw [Nat.ofDigitChars_append, Nat.ofDigitChars_append, Nat.ofDigitChars_ten_toDigits,
      Nat.ofDigitChars_replicate_zero, show ['0'] = List.replicate 1 '0' from rfl,
      Nat.ofDigitChars_replicate_zero, ← Nat.mul_assoc, ← Nat.pow_add, Nat.add_comm, Nat.mul_comm]
  have hdigits : ∀ c ∈ Nat.toDigits 10 n ++ List.replicate k '0', c.isDigit = true :=
    fun c hc => (List.mem_append.mp hc).elim (isDigit_toDigits n c) (isDigit_zeros k c)
  obtain ⟨c, cs, hcs⟩ := toDigits_cons n
  rw [hcs, List.cons_append] at hmoved hdigits ⊢
  have hread := unsigned_point hdigits
    (fun hc => by
      obtain ⟨hzero, hnil⟩ := tail_toDigits hcs hc
      rw [hnil, hn hzero]
      rfl)
    isDigit_zero (by simp) digitsEnd_nil (Nat.le_trans (Nat.le_of_eq hmoved) hfit)
  rwa [List.append_nil, hmoved] at hread

/-- Digits on both sides of the point. -/
theorem unsigned_between {k : Nat} (hfit : n ≤ maxSignificand)
    (hk : k + 1 < (Nat.toDigits 10 n).length) {rest : Bytes} (hrest : DigitsEnd rest) :
    unsigned (Utf8.encode ((Nat.toDigits 10 n).take (k + 1) ++
        '.' :: (Nat.toDigits 10 n).drop (k + 1)) ++ rest) =
      exponentPart ⟨n, -(((Nat.toDigits 10 n).length - (k + 1) : Nat) : Int)⟩ rest := by
  have hvalue := Nat.ofDigitChars_ten_toDigits (n := n)
  have hdigits := isDigit_toDigits n
  obtain ⟨c, cs, hcs⟩ := toDigits_cons n
  have htake : (Nat.toDigits 10 n).take (k + 1) = c :: cs.take k := by rw [hcs]; rfl
  rw [← List.take_append_drop (k + 1) (Nat.toDigits 10 n), htake] at hvalue hdigits
  rw [htake]
  have hread := unsigned_point
    (fun d hd => hdigits d (List.mem_append_left _ hd))
    (fun hc => by rw [(tail_toDigits hcs hc).2, List.take_nil])
    (fun d hd => hdigits d (List.mem_append_right _ hd))
    (List.ne_nil_of_length_pos (by rw [List.length_drop]; omega)) hrest (by rwa [hvalue])
  rwa [hvalue, List.length_drop] at hread

/-- One digit before the point, or alone. -/
theorem unsigned_mantissa (hfit : n ≤ maxSignificand) {c : Char} {cs : List Char}
    (hcs : Nat.toDigits 10 n = c :: cs) (s : Bytes) :
    unsigned (Utf8.encode (if cs = [] then [c] else c :: '.' :: cs) ++ 0x65 :: s) =
      exponentPart ⟨n, -(cs.length : Int)⟩ (0x65 :: s) := by
  split
  · next hnil =>
    have hvalue := Nat.ofDigitChars_ten_toDigits (n := n)
    have hdigits := isDigit_toDigits n
    rw [hcs, hnil] at hvalue hdigits
    rw [unsigned_whole hdigits (fun _ => rfl) (by rwa [hvalue]) (by decide) (by decide), hvalue,
      hnil]
    rfl
  · next hne =>
    have hlength := List.length_pos_iff.mpr hne
    have hletter : DigitsEnd (0x65 :: s) := digitsEnd_cons (by decide) s
    have hread := unsigned_between (k := 0) hfit (by rw [hcs, List.length_cons]; omega) hletter
    rw [hcs] at hread
    exact hread

/-- The bytes of digits with an exponent. -/
theorem encode_exponential (c : Char) (cs : List Char) (point : Int) :
    Utf8.encode (exponential (c :: cs) point) =
      Utf8.encode (if cs = [] then [c] else c :: '.' :: cs) ++
        0x65 :: (if point - 1 < 0 then Ascii.minus else Ascii.plus) ::
          Utf8.encode (Nat.toDigits 10 (point - 1).natAbs) := by
  have hsign : ∀ ds : List Char,
      Utf8.encode ('e' :: (if point - 1 < 0 then '-' else '+') :: ds) =
        0x65 :: (if point - 1 < 0 then Ascii.minus else Ascii.plus) :: Utf8.encode ds := by
    intro ds
    split <;> rfl
  rw [← hsign, ← Utf8.encode_append]
  cases cs <;> rfl

/-- An exponent is added to the power of ten. -/
theorem shift_natAbs (parts : Parts) (power : Int) :
    parts.shift (power < 0) power.natAbs = ⟨parts.significand, parts.exponent + power⟩ := by
  simp only [Parts.shift, decide_eq_true_eq]
  congr 1
  split <;> omega

end Layouts

/-- A decimal with its point in place is taken apart into its parts. -/
theorem unsigned_positional {d : Decimal} (h : d.Fits)
    (hplace : d.exponent + (Nat.toDigits 10 d.digits).length ≤ 16) :
    unsigned (Utf8.encode (positional (Nat.toDigits 10 d.digits)
      (d.exponent + (Nat.toDigits 10 d.digits).length))) = finish d.parts [] := by
  have hfit : d.digits ≤ maxSignificand := Nat.le_trans h.digits_le (by decide)
  have hpos := Nat.length_toDigits_pos (n := d.digits) (b := 10)
  unfold positional
  split
  · rw [unsigned_leading _ hfit, parts_of_neg (by omega)]
    congr 2
    omega
  · split
    · have hsmall := digits_mul_lt (d := d) (by omega) hplace
      rw [show (d.exponent + (Nat.toDigits 10 d.digits).length).natAbs -
        (Nat.toDigits 10 d.digits).length = d.exponent.toNat by omega, parts,
        if_pos ⟨by omega, hsmall⟩]
      refine unsigned_trailing _ (fun hzero => by rw [h.exponent_eq_zero hzero]; rfl) ?_
      rw [Nat.pow_succ, ← Nat.mul_assoc, maxSignificand]
      omega
    · obtain ⟨k, hk⟩ : ∃ k, (d.exponent + (Nat.toDigits 10 d.digits).length).natAbs = k + 1 :=
        ⟨_, (Nat.succ_pred_eq_of_pos (by omega)).symm⟩
      have hread := unsigned_between (k := k) hfit (by omega) digitsEnd_nil
      rw [List.append_nil] at hread
      rw [hk, hread, parts_of_neg (by omega)]
      show finish _ [] = _
      congr 2
      omega

/-- A decimal with an exponent is taken apart into its parts. -/
theorem unsigned_exponential {d : Decimal} (h : d.Fits)
    (hplace : d.exponent + (Nat.toDigits 10 d.digits).length < -4 ∨
      16 < d.exponent + (Nat.toDigits 10 d.digits).length) :
    unsigned (Utf8.encode (exponential (Nat.toDigits 10 d.digits)
      (d.exponent + (Nat.toDigits 10 d.digits).length))) = finish d.parts [] := by
  have hfit : d.digits ≤ maxSignificand := Nat.le_trans h.digits_le (by decide)
  have hdigits : (Nat.toDigits 10 d.digits).length ≤ 18 :=
    (Nat.length_toDigits_le_iff (by decide) (by decide)).mpr
      (Nat.lt_of_le_of_lt h.digits_le (by decide))
  have hexponent := h.natAbs_exponent_le
  have hparts := parts_of_length h (by omega)
  obtain ⟨c, cs, hcs⟩ := toDigits_cons d.digits
  have hlength : (Nat.toDigits 10 d.digits).length = cs.length + 1 := by rw [hcs]; rfl
  generalize hpoint : d.exponent + (Nat.toDigits 10 d.digits).length = point
  have hwritten := exponentPart_written ⟨d.digits, -(cs.length : Int)⟩ (decide (point - 1 < 0))
    (n := (point - 1).natAbs) (by rw [maxExponent]; omega)
  rw [shift_natAbs] at hwritten
  rw [hcs, encode_exponential, unsigned_mantissa hfit hcs, hparts]
  simp only [decide_eq_true_eq] at hwritten
  rw [hwritten]
  congr 2
  omega

/-- A printed decimal is taken apart into its parts. -/
theorem unsigned_write {d : Decimal} (h : d.Fits) :
    unsigned (Utf8.encode (write .message d)) = finish d.parts [] := by
  simp only [write]
  split
  · next hplace =>
    simp only [Style.inPlace, Style.message, Option.all, Bool.and_eq_true,
      decide_eq_true_eq] at hplace
    exact unsigned_positional h hplace.2
  · next hplace =>
    simp only [Style.inPlace, Style.message, Option.all, Bool.and_eq_true,
      decide_eq_true_eq] at hplace
    exact unsigned_exponential h (by omega)

end Decimal

/-! ## Reading a double back -/

/-- What a printed double is scaled to when it is read back. -/
def Encode.rescaled (x : Float) : Option Float :=
  let parts := (Decimal.shortest x).parts
  (Json.Number.scale parts.significand parts.exponent).map fun y =>
    if Binary.isNegative x then -y else y

/-- A printed double is read back as the scaled parts of its shortest decimal. -/
theorem Encode.reread_eq_rescaled (x : Float) : Encode.reread x = Encode.rescaled x := by
  rw [Json.Reader.reread_eq, Json.Number.read, Encode.unsigned,
    Decimal.unsigned_write (Decimal.shortest_fits x), Json.Number.finish, Encode.rescaled]
  cases Json.Number.scale (Decimal.shortest x).parts.significand
    (Decimal.shortest x).parts.exponent <;> rfl

end RemoteInput
