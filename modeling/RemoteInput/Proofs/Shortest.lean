import RemoteInput.Decimal.Shortest

/-!
# The size of a shortest decimal

The shortest decimal of a double has at most eighteen digits and a power of ten
of at most three, and no power of ten if it is zero (`shortest_fits`).  So a
reader with a significand below `2^64` takes all of its digits in.

The digits are a whole number next to the value of the double, divided by a
power of ten.  What is divided by has at most seventeen digits less than the
value, since the estimate of the magnitude is never too small
(`mid_lt_magnitude`).  Doubles have some two thousand powers of two, and the
estimate is checked for each of them.
-/

namespace RemoteInput

/-! ## Doubles taken apart -/

/-- The bounds of a double taken apart. -/
structure Binary.InRange (b : Binary) : Prop where
  significand_lt : b.significand < 2 ^ 53
  le_exponent : -1074 ≤ b.exponent
  exponent_le : b.exponent ≤ 972

theorem Binary.ofFloat_inRange (x : Float) : (Binary.ofFloat x).InRange := by
  have hfield : x.toBits.toNat / 2 ^ 52 % 2 ^ 11 < 2 ^ 11 := Nat.mod_lt _ (by decide)
  have hfraction : x.toBits.toNat % 2 ^ 52 < 2 ^ 52 := Nat.mod_lt _ (by decide)
  simp only [Binary.ofFloat]
  split
  · exact ⟨by simp only; omega, by simp only; omega, by simp only; omega⟩
  · exact ⟨by simp only; omega, by simp only; omega, by simp only; omega⟩

/-- The power of two of a significand is less than that of its length. -/
theorem Binary.InRange.log2_le {b : Binary} (h : b.InRange) : b.significand.log2 ≤ 52 := by
  by_cases hzero : b.significand = 0
  · simp [hzero]
  · have := (Nat.log2_lt hzero).mpr h.significand_lt
    omega

namespace Decimal

/-! ## Whole numbers next to a value -/

/-- The whole number next to a value is the one below it or the next one, and lies in the
interval. -/
theorem Interval.nearest?_le {i : Interval} {k : Nat} (h : i.nearest? = some k) :
    i.contains k = true ∧ k ≤ i.mid / i.denominator + 1 := by
  simp only [Interval.nearest?] at h
  split at h
  · cases h
  · next hfloor hnext =>
    cases h
    exact ⟨hfloor, Nat.le_succ _⟩
  · next hfloor hnext =>
    cases h
    exact ⟨hnext, Nat.le_refl _⟩
  · next hfloor hnext =>
    split at h
    · cases h
      exact ⟨hfloor, Nat.le_succ _⟩
    · split at h
      · cases h
        exact ⟨hnext, Nat.le_refl _⟩
      · split at h
        · cases h
          exact ⟨hfloor, Nat.le_succ _⟩
        · cases h
          exact ⟨hnext, Nat.le_refl _⟩

/-- The whole numbers of an interval do not lie below its lower end. -/
theorem Interval.low_le {i : Interval} {k : Nat} (h : i.contains k = true) :
    i.low ≤ k * i.denominator := by
  simp only [Interval.contains] at h
  split at h
  · simp only [Bool.and_eq_true, decide_eq_true_eq] at h
    exact h.1
  · simp only [Bool.and_eq_true, decide_eq_true_eq] at h
    exact Nat.le_of_lt h.1

/-- No interval of a double other than zero has a zero in it. -/
theorem Interval.pos_of_contains {b : Binary} (hb : b.significand ≠ 0) {exponent : Int} {k : Nat}
    (h : ((Interval.ofBinary b).scale exponent).contains k = true) : 0 < k := by
  have hlow : 0 < ((Interval.ofBinary b).scale exponent).low := by
    simp only [Interval.ofBinary, Interval.scale]
    refine Nat.mul_pos (Nat.mul_pos ?_ (Nat.two_pow_pos _)) (Nat.pow_pos (by decide))
    split <;> omega
  exact Nat.pos_of_mul_pos_right (Nat.lt_of_lt_of_le hlow (Interval.low_le h))

/-! ## Intervals divided by powers of ten -/

/-- A value divided by a power of ten, with the power written as one above and one below. -/
theorem Interval.scale_lt_iff (i : Interval) {exponent : Int} {up down : Nat}
    (h : exponent = (down : Int) - up) (bound : Nat) :
    (i.scale exponent).mid < bound * (i.scale exponent).denominator ↔
      i.mid * 10 ^ up < bound * (i.denominator * 10 ^ down) := by
  obtain ⟨more, hup, hdown⟩ : ∃ more, up = (-exponent).toNat + more ∧
      down = exponent.toNat + more := ⟨min up down, by omega, by omega⟩
  have hmid : i.mid * 10 ^ up = (i.scale exponent).mid * 10 ^ more := by
    rw [hup, Nat.pow_add, ← Nat.mul_assoc]
    rfl
  have hdenominator : bound * (i.denominator * 10 ^ down) =
      bound * (i.scale exponent).denominator * 10 ^ more := by
    rw [hdown, Nat.pow_add, ← Nat.mul_assoc i.denominator, ← Nat.mul_assoc bound]
    rfl
  rw [hmid, hdenominator]
  exact (Nat.mul_lt_mul_right (Nat.pow_pos (by decide))).symm

/-- A power of ten less to divide by is a digit more. -/
theorem Interval.scale_sub_lt_iff (i : Interval) (exponent : Int) (n bound : Nat) :
    (i.scale (exponent - n)).mid < bound * 10 ^ n * (i.scale (exponent - n)).denominator ↔
      (i.scale exponent).mid < bound * (i.scale exponent).denominator := by
  have hmore : exponent - n = (exponent.toNat : Int) - ((-exponent).toNat + n : Nat) := by omega
  have hless : exponent = (exponent.toNat : Int) - (-exponent).toNat := by omega
  rw [i.scale_lt_iff hmore, i.scale_lt_iff hless, Nat.pow_add, ← Nat.mul_assoc,
    Nat.mul_right_comm bound]
  exact Nat.mul_lt_mul_right (Nat.pow_pos (by decide))

/-! ## The magnitude -/

/-- The estimated magnitude of a power of two. -/
def guess (power : Int) : Int := power * 315653 / 2 ^ 20

/-- Two more than the estimate is enough, for one power of two. -/
def guessSuffices (power : Int) : Bool :=
  2 ^ (power + 1).toNat * 10 ^ (-(guess power + 2)).toNat ≤
    10 ^ (guess power + 2).toNat * 2 ^ (-(power + 1)).toNat

theorem guessSuffices_all :
    (List.range 2100).all (fun (n : Nat) => guessSuffices ((n : Int) - 1074)) = true := by
  decide +kernel

/-- The estimate of the magnitude of a double is at most two too small. -/
theorem guessSuffices_of_inRange {b : Binary} (h : b.InRange) :
    guessSuffices (b.exponent + b.significand.log2) = true := by
  have hlog := h.log2_le
  have hleast := h.le_exponent
  have hmost := h.exponent_le
  obtain ⟨n, hn⟩ : ∃ n : Nat, b.exponent + b.significand.log2 = (n : Int) - 1074 :=
    ⟨(b.exponent + b.significand.log2 + 1074).toNat, by omega⟩
  rw [hn]
  exact List.all_eq_true.mp guessSuffices_all n (List.mem_range.mpr (by omega))

/-- The value of a double is below the power of two after it. -/
theorem Interval.mid_lt_two_pow {b : Binary} {power : Int}
    (h : power = b.exponent + b.significand.log2 + 1) :
    (Interval.ofBinary b).mid * 2 ^ (-power).toNat <
      (Interval.ofBinary b).denominator * 2 ^ power.toNat := by
  have hlog : b.significand < 2 ^ (b.significand.log2 + 1) := Nat.lt_log2_self
  simp only [Interval.ofBinary]
  calc 4 * b.significand * 2 ^ (b.exponent - 2).toNat * 2 ^ (-power).toNat
      < 4 * 2 ^ (b.significand.log2 + 1) * 2 ^ (b.exponent - 2).toNat * 2 ^ (-power).toNat := by
        refine Nat.mul_lt_mul_of_pos_right (Nat.mul_lt_mul_of_pos_right ?_ (Nat.two_pow_pos _))
          (Nat.two_pow_pos _)
        omega
    _ = 2 ^ (2 + (b.significand.log2 + 1) + (b.exponent - 2).toNat + (-power).toNat) := by
        simp only [Nat.pow_add, Nat.mul_assoc]
    _ = 2 ^ ((2 - b.exponent).toNat + power.toNat) := by
        congr 1
        omega
    _ = 2 ^ (2 - b.exponent).toNat * 2 ^ power.toNat := Nat.pow_add ..

/-- A double is below the power of ten of its magnitude. -/
theorem mid_lt_magnitude {b : Binary} (h : b.InRange) :
    ((Interval.ofBinary b).scale (magnitude b (Interval.ofBinary b))).mid <
      ((Interval.ofBinary b).scale (magnitude b (Interval.ofBinary b))).denominator := by
  generalize hi : Interval.ofBinary b = i
  have hguess : (b.exponent + b.significand.log2) * 315653 / 2 ^ 20 =
      guess (b.exponent + b.significand.log2) := rfl
  rw [magnitude, hguess]
  generalize hg : guess (b.exponent + b.significand.log2) = g
  split
  · next hfirst => exact hfirst
  · split
    · next hsecond =>
      rw [← Nat.one_mul (i.scale (g + 1)).denominator, ← i.scale_sub_lt_iff (g + 1) 1 1]
      simpa using hsecond
    · -- Neither test passed, so the estimate is what bounds the value.
      have hpower := Interval.mid_lt_two_pow (b := b) rfl
      have hsuffices := guessSuffices_of_inRange h
      rw [guessSuffices, hg, decide_eq_true_eq] at hsuffices
      rw [hi] at hpower
      have hsplit : g + 2 = ((g + 2).toNat : Int) - (-(g + 2)).toNat := by omega
      rw [← Nat.one_mul (i.scale (g + 2)).denominator, i.scale_lt_iff hsplit, Nat.one_mul]
      generalize b.exponent + b.significand.log2 + 1 = power at hpower hsuffices
      refine Nat.lt_of_mul_lt_mul_right (a := 2 ^ (-power).toNat) ?_
      calc i.mid * 10 ^ (-(g + 2)).toNat * 2 ^ (-power).toNat
          = i.mid * 2 ^ (-power).toNat * 10 ^ (-(g + 2)).toNat := Nat.mul_right_comm ..
        _ < i.denominator * 2 ^ power.toNat * 10 ^ (-(g + 2)).toNat :=
            Nat.mul_lt_mul_of_pos_right hpower (Nat.pow_pos (by decide))
        _ = i.denominator * (2 ^ power.toNat * 10 ^ (-(g + 2)).toNat) := Nat.mul_assoc ..
        _ ≤ i.denominator * (10 ^ (g + 2).toNat * 2 ^ (-power).toNat) :=
            Nat.mul_le_mul_left _ hsuffices
        _ = i.denominator * 10 ^ (g + 2).toNat * 2 ^ (-power).toNat := (Nat.mul_assoc ..).symm

/-- The magnitude of a double has at most three digits. -/
theorem magnitude_bounds {b : Binary} (h : b.InRange) (i : Interval) :
    -324 ≤ magnitude b i ∧ magnitude b i ≤ 311 := by
  have hlog := h.log2_le
  have hleast := h.le_exponent
  have hmost := h.exponent_le
  simp only [magnitude]
  split
  · omega
  · split <;> omega

/-! ## The digits and the power of ten -/

/-- Dropping zeros does not make digits greater or zero, and moves the power of ten up by one for
each. -/
theorem trim_bounds (bound : Nat) (d : Decimal) :
    (trim bound d).digits ≤ d.digits ∧ (0 < d.digits → 0 < (trim bound d).digits) ∧
      d.exponent ≤ (trim bound d).exponent ∧ (trim bound d).exponent ≤ d.exponent + bound := by
  induction bound generalizing d with
  | zero => exact ⟨Nat.le_refl _, id, Int.le_refl _, by simp [trim]⟩
  | succ bound ih =>
      rw [trim]
      split
      · obtain ⟨hdigits, hpos, hexponent, hbound⟩ := ih ⟨d.digits / 10, d.exponent + 1⟩
        simp only at hdigits hpos hexponent hbound
        exact ⟨by omega, fun h => hpos (by omega), by omega, by omega⟩
      · exact ⟨Nat.le_refl _, id, Int.le_refl _, by omega⟩

/-- The bounds of a decimal that is printed. -/
structure Fits (d : Decimal) : Prop where
  digits_le : d.digits ≤ 10 ^ 17
  natAbs_exponent_le : d.exponent.natAbs ≤ 400
  exponent_eq_zero : d.digits = 0 → d.exponent = 0

theorem ofBinary_fits {b : Binary} (hb : b.significand ≠ 0) (h : b.InRange) :
    (ofBinary b).Fits := by
  simp only [ofBinary]
  cases hhit : (List.range 17).findSome? (fun n =>
      (((Interval.ofBinary b).scale
        (magnitude b (Interval.ofBinary b) - (n + 1 : Nat))).nearest?).map fun digits =>
          trim 17 ⟨digits, magnitude b (Interval.ofBinary b) - (n + 1 : Nat)⟩) with
  | none =>
      have hlt := h.significand_lt
      exact ⟨by simp only [Option.getD]; omega, by simp, fun hzero => rfl⟩
  | some d =>
      obtain ⟨n, hn, hmap⟩ := List.exists_of_findSome?_eq_some hhit
      obtain ⟨digits, hnearest, rfl⟩ := Option.map_eq_some_iff.mp hmap
      obtain ⟨hcontains, hle⟩ := Interval.nearest?_le hnearest
      have hpos := Interval.pos_of_contains hb hcontains
      have hbounds := magnitude_bounds h (Interval.ofBinary b)
      have hmid := mid_lt_magnitude h
      rw [← Nat.one_mul (Interval.denominator _), ← Interval.scale_sub_lt_iff _ _ (n + 1)] at hmid
      have hfloor := Nat.div_lt_of_lt_mul (Nat.mul_comm .. ▸ hmid)
      have hn : n + 1 ≤ 17 := List.mem_range.mp hn
      have hpow : 10 ^ (n + 1) ≤ 10 ^ 17 := Nat.pow_le_pow_right (by decide) hn
      obtain ⟨htrim, htrimPos, hup, hdown⟩ :=
        trim_bounds 17 ⟨digits, magnitude b (Interval.ofBinary b) - (n + 1 : Nat)⟩
      simp only at htrim htrimPos hup hdown
      simp only [Option.getD]
      refine ⟨by omega, by omega, fun hzero => ?_⟩
      have := htrimPos hpos
      omega

/-- The shortest decimal of a double has few digits and a small power of ten. -/
theorem shortest_fits (x : Float) : (shortest x).Fits := by
  simp only [shortest]
  split
  · exact ⟨by decide, by decide, fun _ => rfl⟩
  · next hb => exact ofBinary_fits hb (Binary.ofFloat_inRange x)

end Decimal

end RemoteInput
