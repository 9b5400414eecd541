import RemoteInput.Proofs.Doubles
import RemoteInput.Proofs.Reread

/-!
# Number texts and their values

A number text is a whole part, a fraction and an exponent part (`Numeral`), with as
many digits in each as one likes.  It stands for a rational number
(`Numeral.magnitude`), and what the reader makes of it is a double.

The reader keeps digits while the significand stays below `2^64`.  So the parts that
it takes the text apart into stand for the number of the text up to one part in
`2^60` (`Parts.Within`): either no digit was dropped, or the digits that were kept are
so many already.  A text whose number is out of the range by more than that and the
roundings of the scaling is not read (`unsigned_outOfRange`).

What is printed for a double is a number text (`Numeral.exists_number`).
-/

namespace RemoteInput

namespace Json

/-! ## Number texts -/

/-- The number that digits stand for after some others. -/
def Number.digits (n : Nat) (s : Bytes) : Nat := s.foldl (fun n b => n * 10 + Ascii.digitValue b) n

/-- An exponent part. -/
structure Exponent where
  /-- Whether its letter is upper case. -/
  upper : Bool
  /-- Its sign, if there is one, and then whether it is a minus sign. -/
  sign : Option Bool
  /-- Its digits. -/
  digits : Bytes
  digits_ne_nil : digits ≠ []
  isDigit_digits : ∀ b ∈ digits, Ascii.isDigit b = true

/-- A number text. -/
structure Numeral where
  /-- Whether there is a minus sign. -/
  negative : Bool
  /-- The digits of the whole part. -/
  whole : Bytes
  /-- The digits after the point.  Without any there is no point. -/
  fraction : Bytes
  /-- The exponent part, if there is one. -/
  exponent : Option Exponent
  whole_ne_nil : whole ≠ []
  isDigit_whole : ∀ b ∈ whole, Ascii.isDigit b = true
  /-- A zero in front stands alone. -/
  tail_eq_nil : whole.head? = some Ascii.zero → whole.tail = []
  isDigit_fraction : ∀ b ∈ fraction, Ascii.isDigit b = true

namespace Exponent

/-- Whether the exponent is negative. -/
def negative (x : Exponent) : Bool := x.sign == some true

/-- The text of an exponent part. -/
def bytes (x : Exponent) : Bytes :=
  let digits :=
    match x.sign with
    | none => x.digits
    | some true => Ascii.minus :: x.digits
    | some false => Ascii.plus :: x.digits
  (if x.upper then 0x45 else 0x65) :: digits

/-- The exponent. -/
def value (x : Exponent) : Int :=
  if x.negative then -(Number.digits 0 x.digits : Int) else Number.digits 0 x.digits

end Exponent

namespace Numeral

/-- The text of the fraction, with its point. -/
def fractionBytes (n : Numeral) : Bytes :=
  match n.fraction with
  | [] => []
  | b :: s => Ascii.point :: b :: s

/-- The text of the exponent part. -/
def exponentBytes (n : Numeral) : Bytes := (n.exponent.map Exponent.bytes).getD []

/-- The text without its sign. -/
def unsigned (n : Numeral) : Bytes := n.whole ++ (n.fractionBytes ++ n.exponentBytes)

/-- The text. -/
def bytes (n : Numeral) : Bytes := if n.negative then Ascii.minus :: n.unsigned else n.unsigned

/-- The exponent, zero if there is no exponent part. -/
def power (n : Numeral) : Int := (n.exponent.map Exponent.value).getD 0

/-- The number without its exponent and its sign. -/
def mantissa (n : Numeral) : ℚ :=
  Number.digits 0 (n.whole ++ n.fraction) * 10 ^ (-(n.fraction.length : Int))

/-- The number without its sign. -/
def magnitude (n : Numeral) : ℚ := n.mantissa * 10 ^ n.power

end Numeral

/-! ## Digits -/

namespace Number

@[simp] theorem digits_nil (n : Nat) : digits n [] = n := rfl

theorem digits_zero_cons (b : UInt8) (s : Bytes) :
    digits 0 (b :: s) = digits (Ascii.digitValue b) s := by
  show digits (0 * 10 + Ascii.digitValue b) s = _
  rw [Nat.zero_mul, Nat.zero_add]

theorem digits_append (n : Nat) (a b : Bytes) : digits n (a ++ b) = digits (digits n a) b :=
  List.foldl_append

theorem digitValue_le {b : UInt8} (h : Ascii.isDigit b = true) : Ascii.digitValue b ≤ 9 := by
  simp only [Ascii.isDigit, Bool.and_eq_true, decide_eq_true_eq, UInt8.le_iff_toNat_le] at h
  have hhigh : (0x39 : UInt8).toNat = 57 := rfl
  rw [Ascii.digitValue]
  omega

theorem digits_eq (n : Nat) (s : Bytes) : digits n s = n * 10 ^ s.length + digits 0 s := by
  induction s generalizing n with
  | nil => rw [digits, digits, List.foldl_nil, List.foldl_nil, List.length_nil, pow_zero]; omega
  | cons b s ih =>
      show digits (n * 10 + Ascii.digitValue b) s = _ + digits (0 * 10 + Ascii.digitValue b) s
      rw [ih, ih (0 * 10 + Ascii.digitValue b), List.length_cons]
      ring

theorem digits_lt {s : Bytes} (h : ∀ b ∈ s, Ascii.isDigit b = true) :
    digits 0 s < 10 ^ s.length := by
  induction s with
  | nil => exact Nat.one_pos
  | cons b s ih =>
      have hb := digitValue_le (h b (List.mem_cons_self ..))
      have hs := ih fun c hc => h c (List.mem_cons_of_mem b hc)
      show digits (0 * 10 + Ascii.digitValue b) s < _
      rw [digits_eq, List.length_cons, pow_succ]
      have hle : (0 * 10 + Ascii.digitValue b) * 10 ^ s.length ≤ 9 * 10 ^ s.length :=
        Nat.mul_le_mul_right _ (by omega)
      omega

/-- What digits at the end add is less than one at their front. -/
theorem digits_append_le (n : Nat) (front : Bytes) {back : Bytes}
    (h : ∀ b ∈ back, Ascii.isDigit b = true) :
    digits n (front ++ back) ≤ (digits n front + 1) * 10 ^ back.length := by
  have hlt := digits_lt h
  rw [digits_append, digits_eq, Nat.add_mul, Nat.one_mul]
  omega

theorem le_digits (n : Nat) (s : Bytes) : n ≤ digits n s := by
  rw [digits_eq]
  exact Nat.le_trans (Nat.le_mul_of_pos_right n (by positivity)) (Nat.le_add_right ..)

section Digits

variable {ds rest : Bytes}

/-- Digits are taken in while they fit.  If some are left, those taken in are many. -/
theorem takeDigits_eq (h : ∀ b ∈ ds, Ascii.isDigit b = true) (hrest : DigitsEnd rest)
    (n taken : Nat) (hn : n ≤ maxSignificand) :
    ∃ front back, ds = front ++ back ∧
      takeDigits n taken (ds ++ rest) = (digits n front, taken + front.length, back ++ rest) ∧
      digits n front ≤ maxSignificand ∧ (back ≠ [] → 2 ^ 60 ≤ digits n front) := by
  induction ds generalizing n taken with
  | nil =>
      refine ⟨[], [], rfl, ?_, hn, fun hnil => absurd rfl hnil⟩
      cases rest with
      | nil => rfl
      | cons b s => simp [takeDigits, hrest b rfl, digits]
  | cons b ds ih =>
      have hb := h b (List.mem_cons_self ..)
      have hle := digitValue_le hb
      rw [List.cons_append, takeDigits, hb, Bool.true_and]
      split
      next hfits =>
          rw [decide_eq_true_eq] at hfits
          obtain ⟨front, back, hsplit, htake, hmax, hback⟩ :=
            ih (fun c hc => h c (List.mem_cons_of_mem b hc)) (n * 10 + Ascii.digitValue b)
              (taken + 1) hfits
          refine ⟨b :: front, back, by rw [hsplit, List.cons_append], ?_, hmax, hback⟩
          rw [htake, List.length_cons, Nat.add_assoc, Nat.add_comm 1]
          rfl
      next hfull =>
          rw [decide_eq_true_eq, maxSignificand] at hfull
          refine ⟨[], b :: ds, rfl, rfl, hn, fun _ => ?_⟩
          show 2 ^ 60 ≤ n
          omega

theorem dropDigits_eq (h : ∀ b ∈ ds, Ascii.isDigit b = true) (hrest : DigitsEnd rest)
    (dropped : Nat) : dropDigits dropped (ds ++ rest) = (dropped + ds.length, rest) := by
  induction ds generalizing dropped with
  | nil => exact dropDigits_none hrest dropped
  | cons b ds ih =>
      rw [List.cons_append, dropDigits, if_pos (h b (List.mem_cons_self ..)),
        ih fun c hc => h c (List.mem_cons_of_mem b hc), List.length_cons, Nat.add_assoc,
        Nat.add_comm 1]

/-- The digits of an exponent are all read, unless they make it too large. -/
theorem exponentDigits_eq (h : ∀ b ∈ ds, Ascii.isDigit b = true) {n : Nat} (hn : n ≤ maxExponent) :
    (digits n ds ≤ maxExponent ∧ exponentDigits n ds = (some (digits n ds), [])) ∨
      (maxExponent < digits n ds ∧ ∃ left, exponentDigits n ds = (none, left)) := by
  induction ds generalizing n with
  | nil => exact .inl ⟨hn, rfl⟩
  | cons b ds ih =>
      rw [exponentDigits, if_pos (h b (List.mem_cons_self ..))]
      split
      next hfits => exact ih (fun c hc => h c (List.mem_cons_of_mem b hc)) hfits
      next hover =>
          refine .inr ⟨Nat.lt_of_lt_of_le (Nat.lt_of_not_le hover) ?_, ds, rfl⟩
          exact le_digits _ ds

end Digits

/-! ## Parts of a number text -/

section Scaled

variable {a c k : Nat} {x : Int}

theorem scaled_le (h : a ≤ c * 10 ^ k) : (a : ℚ) * 10 ^ (x - k) ≤ c * 10 ^ x := by
  have hcast : (a : ℚ) ≤ c * 10 ^ k := by exact_mod_cast h
  rw [zpow_sub₀ (by norm_num), zpow_natCast, ← mul_div_assoc, div_le_iff₀ (by positivity)]
  calc
    (a : ℚ) * 10 ^ x ≤ c * 10 ^ k * 10 ^ x := by gcongr
    _ = c * 10 ^ x * 10 ^ k := by ring

theorem le_scaled (h : c * 10 ^ k ≤ a) : (c : ℚ) * 10 ^ x ≤ a * 10 ^ (x - k) := by
  have hcast : (c : ℚ) * 10 ^ k ≤ a := by exact_mod_cast h
  rw [zpow_sub₀ (by norm_num), zpow_natCast, ← mul_div_assoc, le_div_iff₀ (by positivity)]
  calc
    (c : ℚ) * 10 ^ x * 10 ^ k = c * 10 ^ k * 10 ^ x := by ring
    _ ≤ a * 10 ^ x := by gcongr

end Scaled

/-- Whether parts stand for a number up to one part in `2^60`. -/
def Parts.Within (p : Parts) (q : ℚ) : Prop :=
  q * 2 ^ 60 ≤ p.significand * 10 ^ p.exponent * (2 ^ 60 + 1)

/-- With many digits taken in, those that were dropped make little difference. -/
theorem Parts.within_of_lt {p : Parts} {q : ℚ} (hmany : 2 ^ 60 ≤ p.significand)
    (hlt : q ≤ (p.significand + 1) * 10 ^ p.exponent) : p.Within q := by
  have hcast : (2 : ℚ) ^ 60 ≤ p.significand := by exact_mod_cast hmany
  have hpos : (0 : ℚ) < 10 ^ p.exponent := by positivity
  calc
    q * 2 ^ 60 ≤ ((p.significand : ℚ) + 1) * 10 ^ p.exponent * 2 ^ 60 := by gcongr
    _ = ((p.significand : ℚ) * 2 ^ 60 + 2 ^ 60) * 10 ^ p.exponent := by ring
    _ ≤ ((p.significand : ℚ) * 2 ^ 60 + p.significand) * 10 ^ p.exponent := by gcongr
    _ = p.significand * 10 ^ p.exponent * (2 ^ 60 + 1) := by ring

theorem Parts.within_exact (p : Parts) : p.Within (p.significand * 10 ^ p.exponent) := by
  rw [Within]
  gcongr
  norm_num

/-- What is kept of the digits of a whole part, told by the significand and by how many digits were
dropped. -/
inductive Kept (whole : Nat) : Nat → Nat → Prop
  | all : Kept whole whole 0
  | many {significand dropped : Nat} (hmany : 2 ^ 60 ≤ significand)
    (hle : whole + 1 ≤ (significand + 1) * 10 ^ dropped) : Kept whole significand dropped

namespace Kept

variable {whole significand dropped : Nat} (h : Kept whole significand dropped)

include h

theorem within : Parts.Within ⟨significand, dropped⟩ whole := by
  cases h with
  | all =>
      have hown := Parts.within_exact ⟨whole, (0 : Nat)⟩
      rwa [Nat.cast_zero, zpow_zero, mul_one] at hown
  | many hmany hle =>
      refine Parts.within_of_lt hmany ?_
      rw [zpow_natCast]
      exact_mod_cast Nat.le_trans (Nat.le_succ _) hle

/-- Digits of a fraction are taken in after those of the whole part, as long as they fit. -/
theorem within_fraction {front back : Bytes}
    (hdigits : ∀ b ∈ front ++ back, Ascii.isDigit b = true)
    (hback : back ≠ [] → 2 ^ 60 ≤ digits significand front) :
    Parts.Within ⟨digits significand front, dropped - front.length⟩
      (digits whole (front ++ back) * 10 ^ (-((front ++ back).length : Int))) := by
  cases h with
  | all =>
      rw [List.length_append]
      by_cases hnone : back = []
      · subst hnone
        have hown := Parts.within_exact ⟨digits whole front, (0 : Nat) - front.length⟩
        rw [Nat.cast_zero, Int.zero_sub] at hown ⊢
        rwa [List.append_nil, List.length_nil, Nat.add_zero]
      · have hbackDigits : ∀ b ∈ back, Ascii.isDigit b = true := fun b hb =>
          hdigits b (List.mem_append_right front hb)
        refine Parts.within_of_lt (hback hnone) ?_
        have hexp : -((front.length + back.length : Nat) : Int) =
            (0 : Nat) - (front.length : Int) - back.length := by
          push_cast
          ring
        rw [hexp]
        exact_mod_cast scaled_le (digits_append_le whole front hbackDigits)
  | many hmany hle =>
      -- The digits of the fraction are less than one in the last place of the whole part.
      have hone : (digits whole (front ++ back) : ℚ) * 10 ^ (-((front ++ back).length : Int)) ≤
          (significand + 1) * 10 ^ (dropped : Int) := by
        have hless := scaled_le (x := 0) (digits_append_le whole [] hdigits)
        rw [Int.zero_sub, zpow_zero, mul_one, digits_nil, List.nil_append] at hless
        refine hless.trans ?_
        rw [zpow_natCast]
        exact_mod_cast hle
      have hbefore := Parts.within_of_lt (p := ⟨significand, dropped⟩) hmany hone
      refine le_trans hbefore ?_
      have hkept : significand * 10 ^ front.length ≤ digits significand front := by
        rw [digits_eq]
        exact Nat.le_add_right ..
      exact mul_le_mul_of_nonneg_right (le_scaled hkept) (by norm_num)

end Kept

/-- The digits of a whole part are all kept, or many of them are. -/
theorem wholePart_eq (n : Numeral) {rest : Bytes} (hrest : DigitsEnd rest) :
    ∃ significand dropped : Nat,
      wholePart (n.whole ++ rest) = .ok (⟨significand, dropped⟩, rest) ∧
        significand ≤ maxSignificand ∧ Kept (digits 0 n.whole) significand dropped := by
  obtain ⟨b, ds, hwhole⟩ := List.exists_cons_of_ne_nil n.whole_ne_nil
  have hdigits := n.isDigit_whole
  have htail := n.tail_eq_nil
  rw [hwhole] at hdigits htail ⊢
  have hb := hdigits b (List.mem_cons_self ..)
  have hle := digitValue_le hb
  have hds : ∀ c ∈ ds, Ascii.isDigit c = true := fun c hc => hdigits c (List.mem_cons_of_mem b hc)
  by_cases hzero : b = Ascii.zero
  · obtain rfl : ds = [] := htail (by rw [hzero]; rfl)
    subst hzero
    refine ⟨0, 0, ?_, by decide, .all⟩
    cases rest with
    | nil => rfl
    | cons c s => simp [wholePart, hrest c rfl]
  · obtain ⟨front, back, hsplit, htake, hmax, hback⟩ :=
      takeDigits_eq hds hrest (Ascii.digitValue b) 0 (by rw [maxSignificand]; omega)
    have hbackDigits : ∀ c ∈ back, Ascii.isDigit c = true := fun c hc =>
      hds c (hsplit ▸ List.mem_append_right front hc)
    have hvalue : digits 0 (b :: ds) = digits (digits (Ascii.digitValue b) front) back := by
      rw [digits_zero_cons, hsplit, digits_append]
    refine ⟨digits (Ascii.digitValue b) front, back.length, ?_, hmax, ?_⟩
    · rw [List.cons_append, wholePart.eq_def]
      dsimp only
      rw [if_neg (by simpa using hzero), if_pos hb, htake]
      dsimp only
      rw [dropDigits_eq hbackDigits hrest, Nat.zero_add]
    · rw [hvalue]
      by_cases hnone : back = []
      · subst hnone
        exact .all
      · have hlt := digits_lt hbackDigits
        refine .many (hback hnone) ?_
        rw [digits_eq _ back, Nat.add_mul, Nat.one_mul]
        omega

/-- The digits of a fraction are taken in or dropped, and the parts stand for the number with
them. -/
theorem fraction_eq (n : Numeral) {rest : Bytes} (hrest : DigitsEnd rest)
    (hpoint : ∀ b ∈ rest.head?, b ≠ Ascii.point) {significand dropped : Nat}
    (hmax : significand ≤ maxSignificand) (hwhole : Kept (digits 0 n.whole) significand dropped) :
    ∃ p : Parts, fraction ⟨significand, dropped⟩ (n.fractionBytes ++ rest) = .ok (p, rest) ∧
      p.significand ≤ maxSignificand ∧ p.Within n.mantissa := by
  have hdigits := n.isDigit_fraction
  rw [Numeral.fractionBytes, Numeral.mantissa, digits_append]
  cases hfraction : n.fraction with
  | nil =>
      refine ⟨⟨significand, dropped⟩, ?_, hmax, ?_⟩
      · cases rest with
        | nil => rfl
        | cons b s => exact fraction_other (hpoint b rfl) _ s
      · rw [digits_nil, List.length_nil, Nat.cast_zero, neg_zero, zpow_zero, mul_one]
        exact hwhole.within
  | cons b f =>
      rw [hfraction] at hdigits
      obtain ⟨front, back, hsplit, htake, hmax', hback⟩ :=
        takeDigits_eq hdigits hrest significand 0 hmax
      refine ⟨⟨digits significand front, dropped - front.length⟩, ?_, hmax', ?_⟩
      · have hbackDigits : ∀ c ∈ back, Ascii.isDigit c = true := fun c hc =>
          hdigits c (hsplit ▸ List.mem_append_right front hc)
        show fraction _ (Ascii.point :: (b :: f ++ rest)) = _
        rw [List.cons_append] at htake ⊢
        rw [fraction_point, if_pos (hdigits b (List.mem_cons_self ..)), htake]
        dsimp only
        rw [dropDigits_eq hbackDigits hrest, Nat.zero_add]
      · rw [hsplit] at hdigits ⊢
        exact hwhole.within_fraction hdigits hback

/-- An exponent part starts with its letter. -/
theorem exponentBytes_head (n : Numeral) :
    ∀ b ∈ n.exponentBytes.head?, Ascii.isDigit b = false ∧ b ≠ Ascii.point := by
  intro b hb
  rw [Numeral.exponentBytes] at hb
  cases hexponent : n.exponent with
  | none =>
      rw [hexponent] at hb
      cases hb
  | some x =>
      rw [hexponent] at hb
      have hletter : (if x.upper then (0x45 : UInt8) else 0x65) = b := Option.mem_some_iff.mp hb
      rw [← hletter]
      cases x.upper with
      | false => decide
      | true => decide

/-- A number text is taken apart into parts that stand for its number, less its exponent. -/
theorem unsigned_eq (n : Numeral) :
    ∃ p : Parts, p.significand ≤ maxSignificand ∧ p.Within n.mantissa ∧
      Number.unsigned n.unsigned = exponentPart p n.exponentBytes := by
  have hends : DigitsEnd n.exponentBytes := fun b hb => (exponentBytes_head n b hb).1
  have hends' : DigitsEnd (n.fractionBytes ++ n.exponentBytes) := by
    rw [Numeral.fractionBytes]
    split
    next => exact hends
    next b s _ => exact digitsEnd_cons rfl (b :: s ++ n.exponentBytes)
  obtain ⟨significand, dropped, hwhole, hmax, hvalue⟩ := wholePart_eq n hends'
  obtain ⟨p, hfraction, hmax', hwithin⟩ :=
    fraction_eq n hends (fun b hb => (exponentBytes_head n b hb).2) hmax hvalue
  refine ⟨p, hmax', hwithin, ?_⟩
  rw [Number.unsigned, Numeral.unsigned, hwhole]
  show (fraction _ _ >>= fun r => exponentPart r.1 r.2) = _
  rw [hfraction]
  rfl

/-- The reader of an exponent part reads its sign and then its digits. -/
theorem exponentPart_bytes (p : Parts) (x : Exponent) :
    exponentPart p x.bytes = signedExponent p x.negative x.digits := by
  obtain ⟨b, ds, hdigits⟩ := List.exists_cons_of_ne_nil x.digits_ne_nil
  have hb := x.isDigit_digits b (hdigits ▸ List.mem_cons_self ..)
  have hletter : ((if x.upper then (0x45 : UInt8) else 0x65) == 0x65 ||
      (if x.upper then (0x45 : UInt8) else 0x65) == 0x45) = true := by
    cases x.upper with
    | false => rfl
    | true => rfl
  rw [Exponent.bytes, exponentPart_cons, if_pos hletter, Exponent.negative]
  cases x.sign with
  | none =>
      have hplus : b ≠ Ascii.plus := by
        rintro rfl
        cases hb
      have hminus : b ≠ Ascii.minus := by
        rintro rfl
        cases hb
      dsimp only
      rw [hdigits, signed_other hplus hminus]
      rfl
  | some minus =>
      cases minus with
      | false => rfl
      | true => rfl

/-! ## Texts that are out of the range -/

/-- Where the range surely ends.  The largest double starts with the digits `1.797693134862315708`,
and `2 ^ 1024` with the digits `1.797693134862315907`. -/
def outOfRange : ℚ := 1797693134862317 * 10 ^ 293

theorem limit_lt_outOfRange :
    Double.limit * (2 ^ 52 + 1) ^ 2 * (2 ^ 60 + 1) ≤ outOfRange * 2 ^ 60 * (2 ^ 52) ^ 2 := by
  have hnat : 2 ^ 1024 * (2 ^ 52 + 1) ^ 2 * (2 ^ 60 + 1) ≤
      1797693134862317 * 10 ^ 293 * 2 ^ 60 * (2 ^ 52) ^ 2 := by decide +kernel
  have hcast : ((2 ^ 1024 * (2 ^ 52 + 1) ^ 2 * (2 ^ 60 + 1) : Nat) : ℚ) ≤
      (1797693134862317 * 10 ^ 293 * 2 ^ 60 * (2 ^ 52) ^ 2 : Nat) := Nat.cast_le.mpr hnat
  simp only [Nat.cast_mul, Nat.cast_pow, Nat.cast_add, Nat.cast_ofNat, Nat.cast_one] at hcast
  exact hcast

theorem one_lt_outOfRange : 1 < outOfRange :=
  calc
    (1 : ℚ) < 1797693134862317 := by norm_num
    _ ≤ 1797693134862317 * 10 ^ 293 :=
      le_mul_of_one_le_right (by norm_num) (one_le_pow₀ (by norm_num))

/-- Parts that are out of the range are not scaled. -/
theorem scale_outOfRange {p : Parts} {q : ℚ} (hmax : p.significand ≤ maxSignificand)
    (h : p.Within q) (hq : outOfRange ≤ q) : scale p.significand p.exponent = none := by
  refine scale_eq_none (Nat.lt_of_le_of_lt hmax (by decide)) ?_
  have hpos : (0 : ℚ) < 2 ^ 60 + 1 := by norm_num
  refine le_of_mul_le_mul_right ?_ hpos
  calc
    Double.limit * (2 ^ 52 + 1) ^ 2 * (2 ^ 60 + 1) ≤ outOfRange * 2 ^ 60 * (2 ^ 52) ^ 2 :=
      limit_lt_outOfRange
    _ ≤ q * 2 ^ 60 * (2 ^ 52) ^ 2 := by gcongr
    _ ≤ p.significand * 10 ^ p.exponent * (2 ^ 60 + 1) * (2 ^ 52) ^ 2 :=
      mul_le_mul_of_nonneg_right h (by norm_num)
    _ = p.significand * 10 ^ p.exponent * (2 ^ 52) ^ 2 * (2 ^ 60 + 1) := by ring

theorem Parts.Within.shift {p : Parts} {q : ℚ} (h : p.Within q) (x : Exponent) :
    (p.shift x.negative (digits 0 x.digits)).Within (q * 10 ^ x.value) := by
  have hexp : (p.shift x.negative (digits 0 x.digits)).exponent = p.exponent + x.value := by
    rw [Parts.shift, Exponent.value]
    cases x.negative with
    | false => rfl
    | true => rfl
  rw [Within, hexp, zpow_add₀ (by norm_num)]
  show q * 10 ^ x.value * 2 ^ 60 ≤ p.significand * (10 ^ p.exponent * 10 ^ x.value) * (2 ^ 60 + 1)
  calc
    q * 10 ^ x.value * 2 ^ 60 = q * 2 ^ 60 * 10 ^ x.value := by ring
    _ ≤ (p.significand : ℚ) * 10 ^ p.exponent * (2 ^ 60 + 1) * 10 ^ x.value :=
      mul_le_mul_of_nonneg_right h (by positivity)
    _ = _ := by ring

/-- A number without an exponent is below the power of ten that its whole part has digits. -/
theorem mantissa_lt (n : Numeral) : n.mantissa < 10 ^ (n.whole.length : Int) := by
  have hdigits : ∀ b ∈ n.whole ++ n.fraction, Ascii.isDigit b = true := by
    intro b hb
    rcases List.mem_append.mp hb with hb | hb
    · exact n.isDigit_whole b hb
    · exact n.isDigit_fraction b hb
  have hlt := digits_lt hdigits
  rw [List.length_append] at hlt
  have hcast : (digits 0 (n.whole ++ n.fraction) : ℚ) <
      10 ^ ((n.whole.length + n.fraction.length : Nat) : Int) := by
    rw [zpow_natCast]
    exact_mod_cast hlt
  calc
    n.mantissa < 10 ^ ((n.whole.length + n.fraction.length : Nat) : Int) *
        10 ^ (-(n.fraction.length : Int)) := mul_lt_mul_of_pos_right hcast (by positivity)
    _ = 10 ^ (n.whole.length : Int) := by
      rw [← zpow_add₀ (by norm_num)]
      congr 1
      omega

theorem length_whole_le (n : Numeral) : n.whole.length ≤ n.bytes.length := by
  have hunsigned : n.whole.length ≤ n.unsigned.length := by
    rw [Numeral.unsigned, List.length_append]
    exact Nat.le_add_right ..
  rw [Numeral.bytes]
  split
  next => exact Nat.le_succ_of_le hunsigned
  next => exact hunsigned

theorem Parts.Within.significand_ne_zero {p : Parts} {q : ℚ} (h : p.Within q) (hq : 0 < q) :
    p.significand ≠ 0 := by
  intro hzero
  rw [Within, hzero, Nat.cast_zero, zero_mul, zero_mul] at h
  have hpos : 0 < q * 2 ^ 60 := by positivity
  exact absurd h (not_le.mpr hpos)

/-- With an exponent that is too large to be told and negative, a text below `2^31` bytes does not
stand for a number out of the range. -/
theorem not_negative (n : Numeral) (hlength : n.bytes.length < 2 ^ 31) {x : Exponent}
    (hover : maxExponent < digits 0 x.digits) (hq : outOfRange ≤ n.mantissa * 10 ^ x.value) :
    x.negative = false := by
  cases hsign : x.negative with
  | false => rfl
  | true =>
      have hvalue : x.value = -(digits 0 x.digits : Int) := by
        rw [Exponent.value, hsign, if_pos rfl]
      have hwhole := length_whole_le n
      rw [maxExponent] at hover
      have hsmall : n.mantissa * 10 ^ x.value ≤ 1 := by
        calc
          n.mantissa * 10 ^ x.value ≤ 10 ^ (n.whole.length : Int) * 10 ^ x.value :=
            mul_le_mul_of_nonneg_right (mantissa_lt n).le (by positivity)
          _ = 10 ^ ((n.whole.length : Int) + x.value) := (zpow_add₀ (by norm_num) _ _).symm
          _ ≤ 1 := zpow_le_one_of_nonpos₀ (by norm_num) (by omega)
      exact absurd (hq.trans hsmall) (not_le.mpr one_lt_outOfRange)

/-- An exponent part that takes the number out of the range is not read, unless the text is so long
that the exponent cannot be told. -/
theorem exponentPart_outOfRange (n : Numeral) (hlength : n.bytes.length < 2 ^ 31) {p : Parts}
    (hmax : p.significand ≤ maxSignificand) (hwithin : p.Within n.mantissa) {x : Exponent}
    (hq : outOfRange ≤ n.mantissa * 10 ^ x.value) :
    (exponentPart p x.bytes).toOption = none := by
  obtain ⟨b, ds, hdigits⟩ := List.exists_cons_of_ne_nil x.digits_ne_nil
  have hall := x.isDigit_digits
  rw [hdigits] at hall
  obtain ⟨hb, hds⟩ := List.forall_mem_cons.mp hall
  have hvalue : digits 0 x.digits = digits (Ascii.digitValue b) ds := by
    rw [hdigits, digits_zero_cons]
  rw [exponentPart_bytes, hdigits, signedExponent, if_pos hb]
  rcases exponentDigits_eq hds (Nat.le_trans (digitValue_le hb) (by decide)) with
    ⟨-, hread⟩ | ⟨hover, left, hread⟩
  · have hshift := hwithin.shift x
    rw [hvalue] at hshift
    have hscale := scale_outOfRange
      (p := p.shift x.negative (digits (Ascii.digitValue b) ds)) hmax hshift hq
    rw [hread]
    show (finish (p.shift x.negative _) []).toOption = none
    rw [finish, hscale]
    rfl
  · rw [hread]
    -- The exponent is too large to be told, so it is not negative and the number is not zero.
    have hsign : x.negative = false := not_negative n hlength (hvalue ▸ hover) hq
    have hsome : p.significand ≠ 0 := hwithin.significand_ne_zero
      (pos_of_mul_pos_left (one_pos.trans (one_lt_outOfRange.trans_le hq)) (by positivity))
    have hcond : (decide (p.significand ≠ 0) && !x.negative) = true := by
      rw [hsign, decide_eq_true hsome]
      rfl
    dsimp only
    rw [if_pos hcond]
    rfl

/-- A text out of the range is not read, unless it is so long that its exponent cannot be told. -/
theorem unsigned_outOfRange (n : Numeral) (hlength : n.bytes.length < 2 ^ 31)
    (h : outOfRange ≤ n.magnitude) : (Number.unsigned n.unsigned).toOption = none := by
  obtain ⟨p, hmax, hwithin, hunsigned⟩ := unsigned_eq n
  rw [hunsigned, Numeral.exponentBytes]
  rw [Numeral.magnitude, Numeral.power] at h
  cases hexponent : n.exponent with
  | none =>
      rw [hexponent, Option.map_none, Option.getD_none, zpow_zero, mul_one] at h
      show (finish p []).toOption = none
      rw [finish, scale_outOfRange hmax hwithin h]
      rfl
  | some x =>
      rw [hexponent] at h
      exact exponentPart_outOfRange n hlength hmax hwithin h

/-- A number text out of the range is no number, whatever follows it. -/
theorem read_outOfRange (n : Numeral) (hlength : n.bytes.length < 2 ^ 31)
    (h : outOfRange ≤ n.magnitude) {rest : Bytes} (hrest : Stops rest) (negative : Bool) :
    ∃ fault, Number.read negative (n.unsigned ++ rest) = .error fault := by
  have hread := read_append hrest negative n.unsigned
  have hown : (Number.read negative n.unsigned).toOption = none := by
    rw [Number.read, toOption_bind, unsigned_outOfRange n hlength h]
    rfl
  rw [followedBy, hown] at hread
  cases hresult : Number.read negative (n.unsigned ++ rest) with
  | error fault => exact ⟨fault, rfl⟩
  | ok r =>
      rw [hresult] at hread
      cases hread

end Number

/-! ## Printed numbers -/

namespace Numeral

open Decimal (positional exponential write toDigits_cons isDigit_toDigits isDigit_zero
  isDigit_zeros tail_toDigits)

theorem isDigit_encode {cs : List Char} (h : ∀ c ∈ cs, c.isDigit = true) :
    ∀ b ∈ Utf8.encode cs, Ascii.isDigit b = true := by
  induction cs with
  | nil =>
      intro b hb
      cases hb
  | cons c cs ih =>
      obtain ⟨d, hencode, hdigit, -, -⟩ := Number.encode_digit (h c (List.mem_cons_self ..)) cs
      rw [hencode]
      intro b hb
      rcases List.mem_cons.mp hb with rfl | hb
      · exact hdigit
      · exact ih (fun c hc => h c (List.mem_cons_of_mem _ hc)) b hb

/-- Digits before and after a point and an exponent part make a number text. -/
theorem exists_unsigned {c : Char} {cs ds : List Char} (h : ∀ d ∈ c :: cs, d.isDigit = true)
    (hzero : c = '0' → cs = []) (h' : ∀ d ∈ ds, d.isDigit = true) (exponent : Option Exponent) :
    ∃ n : Numeral, n.unsigned = Utf8.encode (c :: cs) ++
      (Utf8.encode (if ds = [] then [] else '.' :: ds) ++
        (exponent.map Exponent.bytes).getD []) := by
  obtain ⟨b, hencode, -, -, hiff⟩ := Number.encode_digit (h c (List.mem_cons_self ..)) cs
  refine ⟨⟨false, Utf8.encode (c :: cs), Utf8.encode ds, exponent, ?_, isDigit_encode h, ?_,
    isDigit_encode h'⟩, ?_⟩
  · rw [hencode]
    exact List.cons_ne_nil _ _
  · rw [hencode]
    intro hhead
    rw [hzero (hiff.mp (Option.some.inj hhead))]
    rfl
  · cases ds with
    | nil => rfl
    | cons d ds =>
        obtain ⟨b', hencode', -, -, -⟩ := Number.encode_digit (h' d (List.mem_cons_self ..)) ds
        have hpoint : Utf8.encode ('.' :: d :: ds) = Ascii.point :: Utf8.encode (d :: ds) := rfl
        rw [if_neg (List.cons_ne_nil d ds), hpoint, unsigned, fractionBytes, exponentBytes]
        dsimp only
        rw [hencode']

/-- A printed exponent part. -/
theorem exists_exponent (power : Int) :
    ∃ x : Exponent, x.bytes = 0x65 :: (if power < 0 then Ascii.minus else Ascii.plus) ::
      Utf8.encode (Nat.toDigits 10 power.natAbs) := by
  obtain ⟨c, cs, hcs⟩ := toDigits_cons power.natAbs
  have hdigits := isDigit_toDigits power.natAbs
  obtain ⟨b, hencode, -, -, -⟩ := Number.encode_digit
    (hdigits c (hcs ▸ List.mem_cons_self ..)) cs
  refine ⟨⟨false, some (power < 0), Utf8.encode (Nat.toDigits 10 power.natAbs), ?_,
    isDigit_encode hdigits⟩, ?_⟩
  · rw [hcs, hencode]
    exact List.cons_ne_nil _ _
  · rw [Exponent.bytes]
    by_cases hnegative : power < 0
    · rw [if_pos hnegative, decide_eq_true hnegative]
      rfl
    · rw [if_neg hnegative, decide_eq_false hnegative]
      rfl

/-- Digits on both sides of a point make a number text. -/
theorem exists_pointed {c : Char} {cs ds : List Char} (h : ∀ d ∈ c :: cs, d.isDigit = true)
    (hzero : c = '0' → cs = []) (h' : ∀ d ∈ ds, d.isDigit = true) (hsome : ds ≠ []) :
    ∃ n : Numeral, n.unsigned = Utf8.encode (c :: cs ++ '.' :: ds) := by
  obtain ⟨n, hn⟩ := exists_unsigned h hzero h' none
  refine ⟨n, hn.trans ?_⟩
  rw [if_neg hsome]
  show _ ++ (_ ++ []) = _
  rw [List.append_nil, ← Utf8.encode_append]

section Layouts

variable {c : Char} {cs : List Char}

/-- Digits with the point in place are a number text.  A zero in front has to be all there is before
the point. -/
theorem exists_positional (hdigits : ∀ e ∈ c :: cs, e.isDigit = true) {point : Int}
    (hzero : c = '0' → cs = [] ∧ point ≤ 1) :
    ∃ n : Numeral, n.unsigned = Utf8.encode (positional (c :: cs) point) := by
  rw [positional]
  split
  next =>
      refine exists_pointed isDigit_zero (fun _ => rfl) (fun e he => ?_) (by simp)
      rcases List.mem_append.mp he with he | he
      · exact isDigit_zeros _ e he
      · exact hdigits e he
  next hpositive =>
      split
      next =>
          refine exists_pointed (fun e he => ?_) (fun hc => ?_) isDigit_zero (List.cons_ne_nil _ _)
          · change e ∈ (c :: cs) ++ _ at he
            rcases List.mem_append.mp he with he | he
            · exact hdigits e he
            · exact isDigit_zeros _ e he
          · obtain ⟨rfl, hpoint⟩ := hzero hc
            have hnone : point.natAbs - [c].length = 0 := by
              rw [List.length_singleton]
              omega
            rw [hnone]
            rfl
      next hbetween =>
          obtain ⟨k, hk⟩ : ∃ k, point.natAbs = k + 1 :=
            ⟨_, (Nat.succ_pred_eq_of_pos (by omega)).symm⟩
          rw [hk] at hbetween ⊢
          refine exists_pointed (fun e he => ?_) (fun hc => ?_) (fun e he => ?_) ?_
          · exact hdigits e (List.mem_of_mem_take (i := k + 1) he)
          · rw [(hzero hc).1, List.take_nil]
          · exact hdigits e (List.mem_of_mem_drop he)
          · refine List.ne_nil_of_length_pos ?_
            rw [List.length_drop]
            omega

/-- Digits with an exponent are a number text. -/
theorem exists_exponential (hdigits : ∀ e ∈ c :: cs, e.isDigit = true) (point : Int) :
    ∃ n : Numeral, n.unsigned = Utf8.encode (exponential (c :: cs) point) := by
  obtain ⟨x, hx⟩ := exists_exponent (point - 1)
  obtain ⟨hc, hcs⟩ := List.forall_mem_cons.mp hdigits
  obtain ⟨n, hn⟩ := exists_unsigned (List.forall_mem_singleton.mpr hc) (fun _ => rfl) hcs (some x)
  refine ⟨n, hn.trans ?_⟩
  rw [Decimal.encode_exponential, ← hx]
  show Utf8.encode [c] ++ (Utf8.encode _ ++ x.bytes) = _
  rw [← List.append_assoc, ← Utf8.encode_append]
  split
  next => rfl
  next => rfl

end Layouts

/-- What is printed of a decimal is a number text. -/
theorem exists_write {d : Decimal} (h : d.Fits) :
    ∃ n : Numeral, n.unsigned = Utf8.encode (write .message d) := by
  obtain ⟨c, cs, hcs⟩ := toDigits_cons d.digits
  have hdigits : ∀ e ∈ c :: cs, e.isDigit = true := hcs ▸ isDigit_toDigits d.digits
  rw [write, hcs]
  split
  next =>
      refine exists_positional hdigits fun hc => ?_
      obtain ⟨hzero, rfl⟩ := tail_toDigits hcs hc
      rw [h.exponent_eq_zero hzero]
      exact ⟨rfl, Int.le_refl 1⟩
  next => exact exists_exponential hdigits _

/-- What is printed of a double is a number text. -/
theorem exists_number (x : Float) : ∃ n : Numeral, n.bytes = Utf8.encode (Encode.number x) := by
  obtain ⟨n, hn⟩ := exists_write (Decimal.shortest_fits x)
  refine ⟨{ n with negative := Binary.isNegative x }, ?_⟩
  rw [Number.encode_number, bytes, Encode.unsigned, ← hn]
  rfl

end Numeral

end Json

end RemoteInput
