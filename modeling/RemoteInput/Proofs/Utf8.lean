import RemoteInput.Text.Utf8

/-!
# Reading UTF-8 back

The bytes that a character is written with are read as that character
(`decodeAfter_char`), so a text is read back from its bytes (`decode_encode`).  A
byte below `0x80` stands for itself wherever it occurs (`eq_of_mem_encodeChar`),
so the bytes that the wire format gives a meaning are never part of a longer
character.

Bytes that are read as a text are also the ones that it is written with
(`eq_encode_of_decodeAfter`).  So what is read is UTF-8 as the core library has it
(`isText_iff`, `isText_iff_decode`).  A byte says of itself whether it starts a
character, and a text may be cut before any byte that does (`isText_cut`).
-/

namespace RemoteInput.Utf8

/-! ## Writing -/

@[simp] theorem encode_nil : encode [] = [] := rfl

theorem encode_cons (c : Char) (text : List Char) :
    encode (c :: text) = String.utf8EncodeChar c ++ encode text := rfl

@[simp] theorem encode_append (text text' : List Char) :
    encode (text ++ text') = encode text ++ encode text' := by
  simp [encode]

/-- A character below `0x80` is written as one byte. -/
theorem encodeChar_ascii {c : Char} (h : c.toNat < 0x80) :
    String.utf8EncodeChar c = [UInt8.ofNat c.toNat] := by
  have hle : c.val.toNat ≤ 0x7F := Nat.le_of_lt_succ h
  simp only [String.utf8EncodeChar, hle, if_true]
  rfl

/-- The bytes of a character from `0x80` on are all from `0x80` on. -/
theorem le_of_mem_encodeChar {c : Char} (h : 0x80 ≤ c.toNat) {b : UInt8}
    (hb : b ∈ String.utf8EncodeChar c) : 0x80 ≤ b.toNat := by
  have hnot : ¬ c.val.toNat ≤ 0x7F := Nat.not_le_of_lt h
  simp only [String.utf8EncodeChar, hnot, if_false] at hb
  split at hb
  · simp only [List.mem_cons, List.not_mem_nil, or_false] at hb
    rcases hb with rfl | rfl <;> simp only [UInt8.toNat_ofNat'] <;> omega
  · split at hb
    · simp only [List.mem_cons, List.not_mem_nil, or_false] at hb
      rcases hb with rfl | rfl | rfl <;> simp only [UInt8.toNat_ofNat'] <;> omega
    · simp only [List.mem_cons, List.not_mem_nil, or_false] at hb
      rcases hb with rfl | rfl | rfl | rfl <;> simp only [UInt8.toNat_ofNat'] <;> omega

/-- A byte below `0x80` is the whole of the character it is part of. -/
theorem eq_of_mem_encodeChar {c : Char} {b : UInt8} (hb : b ∈ String.utf8EncodeChar c)
    (hsmall : b.toNat < 0x80) : c.toNat = b.toNat := by
  by_cases h : c.toNat < 0x80
  · rw [encodeChar_ascii h, List.mem_singleton] at hb
    rw [hb, UInt8.toNat_ofNat']
    omega
  · have hlarge := le_of_mem_encodeChar (Nat.le_of_not_lt h) hb
    omega

/-! ## Reading back -/

theorem toNat_le (c : Char) : c.toNat ≤ 0x10FFFF := by
  have hvalid := c.valid
  simp only [UInt32.isValidChar, Nat.isValidChar] at hvalid
  have hval : c.toNat = c.val.toNat := rfl
  omega

theorem isContinuation_iff (b : UInt8) :
    isContinuation b = true ↔ 0x80 ≤ b.toNat ∧ b.toNat ≤ 0xBF := by
  simp [isContinuation, UInt8.le_iff_toNat_le]

theorem decodeAfter_one {a : UInt8} (ha : a.toNat < 0x80) (seen : List Char) (rest : Bytes) :
    decodeAfter seen (a :: rest) = decodeAfter (Char.ofNat a.toNat :: seen) rest := by
  have h1 : a < 0x80 := UInt8.lt_iff_toNat_lt.mpr ha
  rw [decodeAfter.eq_def]
  simp [h1]

theorem decodeAfter_two {a b : UInt8} (ha : 0xC0 ≤ a.toNat) (ha' : a.toNat < 0xE0)
    (hb : isContinuation b = true) (hcode : 0x80 ≤ code2 a b) (seen : List Char) (rest : Bytes) :
    decodeAfter seen (a :: b :: rest) = decodeAfter (Char.ofNat (code2 a b) :: seen) rest := by
  have h1 : ¬ a < 0x80 := by rw [UInt8.lt_iff_toNat_lt]; simp; omega
  have h2 : ¬ a < 0xC0 := by rw [UInt8.lt_iff_toNat_lt]; simp; omega
  have h3 : a < 0xE0 := UInt8.lt_iff_toNat_lt.mpr ha'
  have h4 : ¬ code2 a b < 0x80 := Nat.not_lt_of_le hcode
  rw [decodeAfter.eq_def]
  simp [h1, h2, hb, h3, h4]

theorem decodeAfter_three {a b c : UInt8} (ha : 0xE0 ≤ a.toNat) (ha' : a.toNat < 0xF0)
    (hb : isContinuation b = true) (hc : isContinuation c = true) (hcode : 0x800 ≤ code3 a b c)
    (hvalid : (code3 a b c).isValidChar) (seen : List Char) (rest : Bytes) :
    decodeAfter seen (a :: b :: c :: rest) =
      decodeAfter (Char.ofNat (code3 a b c) :: seen) rest := by
  have h1 : ¬ a < 0x80 := by rw [UInt8.lt_iff_toNat_lt]; simp; omega
  have h2 : ¬ a < 0xC0 := by rw [UInt8.lt_iff_toNat_lt]; simp; omega
  have h3 : ¬ a < 0xE0 := by rw [UInt8.lt_iff_toNat_lt]; simp; omega
  have h4 : a < 0xF0 := UInt8.lt_iff_toNat_lt.mpr ha'
  have h5 : ¬ code3 a b c < 0x800 := Nat.not_lt_of_le hcode
  rw [decodeAfter.eq_def]
  simp [h1, h2, hb, hc, h3, h4, h5, hvalid]

theorem decodeAfter_four {a b c d : UInt8} (ha : 0xF0 ≤ a.toNat) (ha' : a.toNat < 0xF8)
    (hb : isContinuation b = true) (hc : isContinuation c = true) (hd : isContinuation d = true)
    (hcode : 0x10000 ≤ code4 a b c d) (hvalid : (code4 a b c d).isValidChar) (seen : List Char)
    (rest : Bytes) :
    decodeAfter seen (a :: b :: c :: d :: rest) =
      decodeAfter (Char.ofNat (code4 a b c d) :: seen) rest := by
  have h1 : ¬ a < 0x80 := by rw [UInt8.lt_iff_toNat_lt]; simp; omega
  have h2 : ¬ a < 0xC0 := by rw [UInt8.lt_iff_toNat_lt]; simp; omega
  have h3 : ¬ a < 0xE0 := by rw [UInt8.lt_iff_toNat_lt]; simp; omega
  have h4 : ¬ a < 0xF0 := by rw [UInt8.lt_iff_toNat_lt]; simp; omega
  have h5 : a < 0xF8 := UInt8.lt_iff_toNat_lt.mpr ha'
  have h6 : ¬ code4 a b c d < 0x10000 := Nat.not_lt_of_le hcode
  rw [decodeAfter.eq_def]
  simp [h1, h2, hb, hc, hd, h3, h4, h5, h6, hvalid]

/-! ### The bytes of a code -/

theorem toNat_ofNat_continuation (n : Nat) :
    (UInt8.ofNat (n % 0x40 + 0x80)).toNat = n % 64 + 0x80 := by
  simp
  omega

theorem isContinuation_ofNat (n : Nat) : isContinuation (UInt8.ofNat (n % 0x40 + 0x80)) = true := by
  rw [isContinuation_iff, toNat_ofNat_continuation]
  omega

theorem decodeAfter_code2 {n : Nat} (hlow : 0x80 ≤ n) (hhigh : n < 0x800) (seen : List Char)
    (rest : Bytes) :
    decodeAfter seen (UInt8.ofNat (n / 64 % 0x20 + 0xC0) :: UInt8.ofNat (n % 0x40 + 0x80) :: rest) =
      decodeAfter (Char.ofNat n :: seen) rest := by
  have ha : (UInt8.ofNat (n / 64 % 0x20 + 0xC0)).toNat = n / 64 + 0xC0 := by
    simp
    omega
  have hcode : code2 (UInt8.ofNat (n / 64 % 0x20 + 0xC0)) (UInt8.ofNat (n % 0x40 + 0x80)) = n := by
    rw [code2, ha, toNat_ofNat_continuation]
    omega
  rw [decodeAfter_two (by omega) (by omega) (isContinuation_ofNat n) (by omega), hcode]

theorem decodeAfter_code3 {n : Nat} (hlow : 0x800 ≤ n) (hhigh : n < 0x10000)
    (hvalid : n.isValidChar) (seen : List Char) (rest : Bytes) :
    decodeAfter seen (UInt8.ofNat (n / 4096 % 0x10 + 0xE0) ::
        UInt8.ofNat (n / 64 % 0x40 + 0x80) :: UInt8.ofNat (n % 0x40 + 0x80) :: rest) =
      decodeAfter (Char.ofNat n :: seen) rest := by
  have ha : (UInt8.ofNat (n / 4096 % 0x10 + 0xE0)).toNat = n / 4096 + 0xE0 := by
    simp
    omega
  have hcode : code3 (UInt8.ofNat (n / 4096 % 0x10 + 0xE0)) (UInt8.ofNat (n / 64 % 0x40 + 0x80))
      (UInt8.ofNat (n % 0x40 + 0x80)) = n := by
    rw [code3, ha, toNat_ofNat_continuation, toNat_ofNat_continuation]
    omega
  rw [decodeAfter_three (by omega) (by omega) (isContinuation_ofNat _) (isContinuation_ofNat _)
    (by omega) (by rwa [hcode]), hcode]

theorem decodeAfter_code4 {n : Nat} (hlow : 0x10000 ≤ n) (hhigh : n ≤ 0x10FFFF)
    (hvalid : n.isValidChar) (seen : List Char) (rest : Bytes) :
    decodeAfter seen (UInt8.ofNat (n / 262144 % 0x08 + 0xF0) ::
        UInt8.ofNat (n / 4096 % 0x40 + 0x80) :: UInt8.ofNat (n / 64 % 0x40 + 0x80) ::
        UInt8.ofNat (n % 0x40 + 0x80) :: rest) =
      decodeAfter (Char.ofNat n :: seen) rest := by
  have ha : (UInt8.ofNat (n / 262144 % 0x08 + 0xF0)).toNat = n / 262144 + 0xF0 := by
    simp
    omega
  have hcode : code4 (UInt8.ofNat (n / 262144 % 0x08 + 0xF0)) (UInt8.ofNat (n / 4096 % 0x40 + 0x80))
      (UInt8.ofNat (n / 64 % 0x40 + 0x80)) (UInt8.ofNat (n % 0x40 + 0x80)) = n := by
    rw [code4, ha, toNat_ofNat_continuation, toNat_ofNat_continuation, toNat_ofNat_continuation]
    omega
  rw [decodeAfter_four (by omega) (by omega) (isContinuation_ofNat _) (isContinuation_ofNat _)
    (isContinuation_ofNat _) (by omega) (by rwa [hcode]), hcode]

/-- The bytes of a character are read as that character. -/
theorem decodeAfter_char (c : Char) (seen : List Char) (rest : Bytes) :
    decodeAfter seen (String.utf8EncodeChar c ++ rest) = decodeAfter (c :: seen) rest := by
  have hmax := toNat_le c
  have hchar : Char.ofNat c.toNat = c := Char.ofNat_toNat c
  have hvalid : c.toNat.isValidChar := c.valid
  simp only [String.utf8EncodeChar, show c.val.toNat = c.toNat from rfl]
  -- Each width of the encoding is one of the lemmas above, on the code of the character.
  generalize c.toNat = n at hmax hchar hvalid
  rw [← hchar]
  split
  next h1 =>
      have ha : (UInt8.ofNat n).toNat = n := by
        simp
        omega
      rw [List.cons_append, List.nil_append, decodeAfter_one (by omega), ha]
  next h1 =>
      split
      next h2 => exact decodeAfter_code2 (by omega) (by omega) seen rest
      next h2 =>
          split
          next h3 => exact decodeAfter_code3 (by omega) (by omega) hvalid seen rest
          next h3 => exact decodeAfter_code4 (by omega) hmax hvalid seen rest

theorem decodeAfter_encode (text seen : List Char) :
    decodeAfter seen (encode text) = .ok (seen.reverse ++ text) := by
  induction text generalizing seen with
  | nil => simp [encode, decodeAfter]
  | cons c text ih =>
      rw [encode_cons, decodeAfter_char, ih, List.reverse_cons, List.append_assoc,
        List.singleton_append]

/-- A text is read back from its bytes. -/
theorem decode_encode (text : List Char) : decode (encode text) = .ok text := by
  simpa [decode] using decodeAfter_encode text []

theorem decodeString?_encode (text : List Char) :
    decodeString? (encode text) = some (String.ofList text) := by
  rw [decodeString?, decode_encode]
  rfl

/-! ## Reading tells what was written -/

theorem toNat_ofNat {n : Nat} (h : n.isValidChar) : (Char.ofNat n).toNat = n := by
  rw [Char.ofNat, dif_pos h]
  rfl

theorem isValidChar_of_lt {n : Nat} (h : n < 0xD800) : n.isValidChar := Or.inl h

/-- A byte from its value. -/
theorem ofNat_eq {a : UInt8} {n : Nat} (h : n = a.toNat) : UInt8.ofNat n = a := by
  rw [h, UInt8.ofNat_toNat]

theorem encodeChar_one {a : UInt8} (ha : a.toNat < 0x80) :
    String.utf8EncodeChar (Char.ofNat a.toNat) = [a] := by
  have hcode : (Char.ofNat a.toNat).toNat = a.toNat := toNat_ofNat (isValidChar_of_lt (by omega))
  rw [encodeChar_ascii (by omega), hcode, UInt8.ofNat_toNat]

theorem encodeChar_two {a b : UInt8} (ha : 0xC0 ≤ a.toNat) (ha' : a.toNat < 0xE0)
    (hb : isContinuation b = true) (hcode : 0x80 ≤ code2 a b) :
    String.utf8EncodeChar (Char.ofNat (code2 a b)) = [a, b] := by
  rw [isContinuation_iff] at hb
  have hcode2 : code2 a b = a.toNat % 32 * 64 + b.toNat % 64 := rfl
  generalize code2 a b = n at hcode hcode2
  have hval : (Char.ofNat n).val.toNat = n := toNat_ofNat (isValidChar_of_lt (by omega))
  simp only [String.utf8EncodeChar, hval]
  rw [if_neg (by omega), if_pos (by omega), ofNat_eq (a := a) (by omega),
    ofNat_eq (a := b) (by omega)]

theorem encodeChar_three {a b c : UInt8} (ha : 0xE0 ≤ a.toNat) (ha' : a.toNat < 0xF0)
    (hb : isContinuation b = true) (hc : isContinuation c = true) (hcode : 0x800 ≤ code3 a b c)
    (hvalid : (code3 a b c).isValidChar) :
    String.utf8EncodeChar (Char.ofNat (code3 a b c)) = [a, b, c] := by
  rw [isContinuation_iff] at hb hc
  have hcode3 : code3 a b c = (a.toNat % 16 * 64 + b.toNat % 64) * 64 + c.toNat % 64 := rfl
  generalize code3 a b c = n at hcode hcode3 hvalid
  have hval : (Char.ofNat n).val.toNat = n := toNat_ofNat hvalid
  simp only [String.utf8EncodeChar, hval]
  rw [if_neg (by omega), if_neg (by omega), if_pos (by omega), ofNat_eq (a := a) (by omega),
    ofNat_eq (a := b) (by omega), ofNat_eq (a := c) (by omega)]

theorem encodeChar_four {a b c d : UInt8} (ha : 0xF0 ≤ a.toNat) (ha' : a.toNat < 0xF8)
    (hb : isContinuation b = true) (hc : isContinuation c = true) (hd : isContinuation d = true)
    (hcode : 0x10000 ≤ code4 a b c d) (hvalid : (code4 a b c d).isValidChar) :
    String.utf8EncodeChar (Char.ofNat (code4 a b c d)) = [a, b, c, d] := by
  rw [isContinuation_iff] at hb hc hd
  have hcode4 : code4 a b c d =
      ((a.toNat % 8 * 64 + b.toNat % 64) * 64 + c.toNat % 64) * 64 + d.toNat % 64 := rfl
  generalize code4 a b c d = n at hcode hcode4 hvalid
  have hval : (Char.ofNat n).val.toNat = n := toNat_ofNat hvalid
  simp only [String.utf8EncodeChar, hval]
  rw [if_neg (by omega), if_neg (by omega), if_neg (by omega), ofNat_eq (a := a) (by omega),
    ofNat_eq (a := b) (by omega), ofNat_eq (a := c) (by omega), ofNat_eq (a := d) (by omega)]

/-- Bytes that are read as a text are the ones that it is written with. -/
theorem eq_encode_of_decodeAfter {seen text : List Char} {s : Bytes}
    (h : decodeAfter seen s = .ok text) : ∃ t, text = seen.reverse ++ t ∧ s = encode t := by
  -- A character that was read is the next one of the text, and the rest is the rest.
  have hnext : ∀ {seen : List Char} {c : Char} {bytes s : Bytes},
      String.utf8EncodeChar c = bytes →
      (∃ t, text = (c :: seen).reverse ++ t ∧ s = encode t) →
      ∃ t, text = seen.reverse ++ t ∧ bytes ++ s = encode t := by
    rintro seen c bytes s rfl ⟨t, rfl, rfl⟩
    exact ⟨c :: t, by simp, rfl⟩
  fun_induction decodeAfter seen s with
  | case1 =>
      cases h
      exact ⟨[], by simp, rfl⟩
  | case2 seen a rest hone ih =>
      exact hnext (encodeChar_one (UInt8.lt_iff_toNat_lt.mp hone)) (ih h)
  | case7 seen a hone hlead b s hb htwo hcode ih =>
      simp only [UInt8.lt_iff_toNat_lt, Nat.not_lt, Bool.not_eq_true', Bool.not_eq_false] at *
      exact hnext (encodeChar_two hlead htwo hb hcode) (ih h)
  | case11 seen a hone hlead b hb htwo c s hc hthree hcode ih =>
      rw [Bool.or_eq_true, not_or] at hcode
      simp only [UInt8.lt_iff_toNat_lt, Nat.not_lt, Bool.not_eq_true', Bool.not_eq_false] at *
      exact hnext (encodeChar_three htwo hthree hb hc (by simpa using hcode.1)
        (by simpa using hcode.2)) (ih h)
  | case15 seen a hone hlead b hb htwo c hc hthree hfour d s hd hcode ih =>
      rw [Bool.or_eq_true, not_or] at hcode
      simp only [UInt8.lt_iff_toNat_lt, Nat.not_lt, Bool.not_eq_true', Bool.not_eq_false] at *
      exact hnext (encodeChar_four hthree hfour hb hc hd (by simpa using hcode.1)
        (by simpa using hcode.2)) (ih h)
  | case3 | case4 | case5 | case6 | case8 | case9 | case10 | case12 | case13 | case14 | case16 =>
      cases h

/-! ## Bytes that are a text -/

/-- Whether some bytes are the ones that a text is written with. -/
def IsText (bytes : Bytes) : Prop := ∃ text, bytes = encode text

/-- These are the bytes that the core library takes for UTF-8. -/
theorem isText_iff {bytes : Bytes} : IsText bytes ↔ bytes.toByteArray.IsValidUTF8 := by
  constructor
  · rintro ⟨text, rfl⟩
    exact .intro text rfl
  · rintro ⟨text, h⟩
    exact ⟨text, List.toByteArray_inj.mp h⟩

theorem isText_of_decode {bytes : Bytes} {text : List Char} (h : decode bytes = .ok text) :
    IsText bytes := by
  obtain ⟨t, -, hbytes⟩ := eq_encode_of_decodeAfter h
  exact ⟨t, hbytes⟩

theorem isText_iff_decode {bytes : Bytes} : IsText bytes ↔ (decode bytes).toOption.isSome := by
  constructor
  · rintro ⟨text, rfl⟩
    rw [decode_encode]
    rfl
  · intro h
    cases hdecode : decode bytes with
    | ok text => exact isText_of_decode hdecode
    | error rest =>
        rw [hdecode] at h
        cases h

theorem isText_nil : IsText [] := ⟨[], rfl⟩

theorem IsText.append {x y : Bytes} (hx : IsText x) (hy : IsText y) : IsText (x ++ y) := by
  obtain ⟨t, rfl⟩ := hx
  obtain ⟨u, rfl⟩ := hy
  exact ⟨t ++ u, (encode_append t u).symm⟩

/-- Bytes below `0x80` are a text, one character each. -/
theorem isText_ascii {bytes : Bytes} (h : ∀ b ∈ bytes, b.toNat < 0x80) : IsText bytes := by
  induction bytes with
  | nil => exact isText_nil
  | cons b bytes ih =>
      have hfirst : IsText [b] :=
        ⟨[Char.ofNat b.toNat], by simp [encode, encodeChar_one (h b (List.mem_cons_self ..))]⟩
      exact hfirst.append (ih fun b' hb' => h b' (List.mem_cons_of_mem b hb'))

/-- The first byte of a character tells itself from the other ones. -/
theorem encodeChar_cons (c : Char) :
    ∃ a t, String.utf8EncodeChar c = a :: t ∧ isContinuation a = false ∧
      ∀ b ∈ t, isContinuation b = true := by
  have hlead : ∀ n : Nat, (n < 0x80 ∨ 0xC0 ≤ n) → n < 0x100 →
      isContinuation (UInt8.ofNat n) = false := by
    intro n hn hbyte
    have hnot : ¬ isContinuation (UInt8.ofNat n) = true := by
      rw [isContinuation_iff, UInt8.toNat_ofNat']
      omega
    simpa using hnot
  have hmax := toNat_le c
  simp only [String.utf8EncodeChar, show c.val.toNat = c.toNat from rfl]
  split
  · exact ⟨_, _, rfl, hlead _ (by omega) (by omega), by simp⟩
  · split
    · exact ⟨_, _, rfl, hlead _ (by omega) (by omega), by
        simp only [List.forall_mem_cons, isContinuation_ofNat, List.not_mem_nil, false_implies,
          implies_true, and_true]⟩
    · split
      · exact ⟨_, _, rfl, hlead _ (by omega) (by omega), by
        simp only [List.forall_mem_cons, isContinuation_ofNat, List.not_mem_nil, false_implies,
          implies_true, and_true]⟩
      · exact ⟨_, _, rfl, hlead _ (by omega) (by omega), by
        simp only [List.forall_mem_cons, isContinuation_ofNat, List.not_mem_nil, false_implies,
          implies_true, and_true]⟩

/-- A text may be cut before any byte that starts a character. -/
theorem isText_cut {x y : Bytes} {b : UInt8} (h : IsText (x ++ b :: y))
    (hb : isContinuation b = false) : IsText x ∧ IsText (b :: y) := by
  obtain ⟨text, htext⟩ := h
  induction text generalizing x with
  | nil => simp at htext
  | cons c text ih =>
      rw [encode_cons] at htext
      rcases List.append_eq_append_iff.mp htext with ⟨z, hchar, hrest⟩ | ⟨z, rfl, hrest⟩
      · -- The cut is not after the first character, so it is before it.
        obtain ⟨a, t, hcons, -, hcontinuation⟩ := encodeChar_cons c
        cases x with
        | nil => exact ⟨isText_nil, c :: text, htext⟩
        | cons a' x =>
            cases z with
            | nil =>
                rw [List.append_nil] at hchar
                exact ⟨⟨[c], by simp [encode, hchar]⟩, text, hrest⟩
            | cons b' z =>
                obtain ⟨rfl, -⟩ := List.cons.inj hrest
                rw [hcons, List.cons_append] at hchar
                obtain ⟨-, rfl⟩ := List.cons.inj hchar
                rw [hcontinuation b (by simp)] at hb
                cases hb
      · obtain ⟨⟨u, rfl⟩, hy⟩ := ih hrest.symm
        exact ⟨⟨c :: u, rfl⟩, hy⟩

/-- What is left of a text without a character in its midst are two texts. -/
theorem isText_around {x y : Bytes} {c : Char} (h : IsText (x ++ (String.utf8EncodeChar c ++ y))) :
    IsText x ∧ IsText y := by
  obtain ⟨a, t, hcons, hlead, -⟩ := encodeChar_cons c
  have hcut : IsText x ∧ IsText (String.utf8EncodeChar c ++ y) := by
    rw [hcons] at h ⊢
    exact isText_cut h hlead
  obtain ⟨hx, text, htext⟩ := hcut
  have hread := decode_encode text
  rw [← htext, decode, decodeAfter_char] at hread
  obtain ⟨u, -, hy⟩ := eq_encode_of_decodeAfter hread
  exact ⟨hx, u, hy⟩

end RemoteInput.Utf8
