import RemoteInput.Json.Quoted
import RemoteInput.Proofs.Utf8

/-!
# Reading a written string back

A written character is read as the bytes of the character, whatever follows it
(`content_writeChar`).  So a written string is read up to its own closing quote
and not beyond, and gives the text it was written from (`read_write`).  No
character of the text can end the string early.

What is written holds no control character (`le_of_mem_write`).
-/

namespace RemoteInput.Json.Quoted

/-! ## One step of the reader -/

theorem content_quote (bound : Nat) (seen rest : Bytes) :
    content (bound + 1) seen (Ascii.quote :: rest) = .ok (seen.reverse, rest) := rfl

theorem content_backslash (bound : Nat) (seen rest : Bytes) :
    content (bound + 1) seen (Ascii.backslash :: rest) =
      (do
        let (c, s) ← escape rest
        content bound ((String.utf8EncodeChar c).reverse ++ seen) s) := rfl

/-- What a string goes on with. -/
theorem content_cons (bound : Nat) (seen : Bytes) (b : UInt8) (rest : Bytes) :
    content (bound + 1) seen (b :: rest) =
      if b = Ascii.quote then .ok (seen.reverse, rest)
      else if b = Ascii.backslash then do
        let (c, s) ← escape rest
        content bound ((String.utf8EncodeChar c).reverse ++ seen) s
      else if b < 0x20 then .error ⟨.controlCharacter, rest⟩
      else content bound (b :: seen) rest := by
  by_cases hquote : b = Ascii.quote
  · rw [if_pos hquote, hquote]
    exact content_quote bound seen rest
  by_cases hbackslash : b = Ascii.backslash
  · rw [if_neg hquote, if_pos hbackslash, hbackslash]
    exact content_backslash bound seen rest
  rw [if_neg hquote, if_neg hbackslash, content]
  · exact hquote
  · exact hbackslash

theorem content_other {b : UInt8} (hquote : b ≠ Ascii.quote) (hbackslash : b ≠ Ascii.backslash)
    (hcontrol : ¬ b < 0x20) (bound : Nat) (seen rest : Bytes) :
    content (bound + 1) seen (b :: rest) = content bound (b :: seen) rest := by
  rw [content_cons, if_neg hquote, if_neg hbackslash, if_neg hcontrol]

/-! ## Raw characters -/

/-- Whether a byte stands for itself between quotes. -/
def isRaw (b : UInt8) : Bool := b != Ascii.quote && b != Ascii.backslash && !(b < 0x20)

theorem content_raw {bytes : Bytes} (hraw : ∀ b ∈ bytes, isRaw b = true) (bound : Nat)
    (seen rest : Bytes) :
    content (bound + bytes.length) seen (bytes ++ rest) =
      content bound (bytes.reverse ++ seen) rest := by
  induction bytes generalizing seen with
  | nil => rfl
  | cons b bytes ih =>
      have hb := hraw b (List.mem_cons_self ..)
      simp only [isRaw, Bool.and_eq_true, bne_iff_ne, ne_eq, Bool.not_eq_true',
        decide_eq_false_iff_not] at hb
      obtain ⟨⟨hquote, hbackslash⟩, hcontrol⟩ := hb
      rw [List.length_cons, ← Nat.add_assoc, List.cons_append,
        content_other hquote hbackslash hcontrol,
        ih (fun b' hb' => hraw b' (List.mem_cons_of_mem b hb')), List.reverse_cons,
        List.append_assoc, List.singleton_append]

/-- The bytes of a character that is not escaped stand for themselves. -/
theorem isRaw_of_mem_encodeChar {c : Char} (hquote : c ≠ '"') (hbackslash : c ≠ '\\')
    (hcontrol : 0x20 ≤ c.toNat) {b : UInt8} (hb : b ∈ String.utf8EncodeChar c) :
    isRaw b = true := by
  have heq : ∀ d : Char, c ≠ d → d.toNat < 0x80 → b.toNat ≠ d.toNat := by
    intro d hne hd hbd
    have hcb := Utf8.eq_of_mem_encodeChar hb (by omega)
    exact hne (Char.toNat_inj.mp (hcb.trans hbd))
  have hq : b ≠ Ascii.quote := fun h => heq '"' hquote (by decide) (by rw [h]; rfl)
  have hs : b ≠ Ascii.backslash := fun h => heq '\\' hbackslash (by decide) (by rw [h]; rfl)
  have hc : ¬ b < 0x20 := by
    intro h
    rw [UInt8.lt_iff_toNat_lt] at h
    have hcb := Utf8.eq_of_mem_encodeChar hb (Nat.lt_trans h (by decide))
    rw [hcb] at hcontrol
    exact absurd h (Nat.not_lt_of_le hcontrol)
  simp [isRaw, hq, hs, hc]

/-! ## Escapes -/

theorem content_escape {escaped rest : Bytes} {c : Char}
    (h : escape (escaped ++ rest) = .ok (c, rest)) (bound : Nat) (seen : Bytes) :
    content (bound + 1) seen (Ascii.backslash :: escaped ++ rest) =
      content bound ((String.utf8EncodeChar c).reverse ++ seen) rest := by
  rw [List.cons_append, content_backslash, h]
  rfl

theorem hexValue?_hexDigit : ∀ n < 16,
    Ascii.hexValue? (UInt8.ofNat (Ascii.hexDigit n).toNat) = some n := by
  decide

theorem encodeChar_hexDigit : ∀ n < 16,
    String.utf8EncodeChar (Ascii.hexDigit n) = [UInt8.ofNat (Ascii.hexDigit n).toNat] := by
  decide

/-- The escape of a control character with two hexadecimal digits is read as that character. -/
theorem escape_control {c : Char} (h : c.toNat < 0x20) (rest : Bytes) :
    escape (Utf8.encode ['u', '0', '0', Ascii.hexDigit (c.toNat / 16),
      Ascii.hexDigit (c.toNat % 16)] ++ rest) = .ok (c, rest) := by
  have hhigh := hexValue?_hexDigit (c.toNat / 16) (by omega)
  have hlow := hexValue?_hexDigit (c.toNat % 16) (by omega)
  have hbytes : Utf8.encode ['u', '0', '0', Ascii.hexDigit (c.toNat / 16),
      Ascii.hexDigit (c.toNat % 16)] = [Ascii.letterU, Ascii.zero, Ascii.zero,
        UInt8.ofNat (Ascii.hexDigit (c.toNat / 16)).toNat,
        UInt8.ofNat (Ascii.hexDigit (c.toNat % 16)).toNat] := by
    simp only [Utf8.encode_cons, encodeChar_hexDigit _ (show c.toNat / 16 < 16 by omega),
      encodeChar_hexDigit _ (show c.toNat % 16 < 16 by omega)]
    rfl
  have hcode : c.toNat / 16 * 16 + c.toNat % 16 = c.toNat := by omega
  have hzero : Ascii.hexValue? Ascii.zero = some 0 := rfl
  have htrailing : isTrailing c.toNat = false := by simp [isTrailing]; omega
  have hleading : isLeading c.toNat = false := by simp [isLeading]; omega
  calc
    escape (_ ++ rest) = unicodeEscape (Ascii.zero :: Ascii.zero ::
        UInt8.ofNat (Ascii.hexDigit (c.toNat / 16)).toNat ::
        UInt8.ofNat (Ascii.hexDigit (c.toNat % 16)).toNat :: rest) := by rw [hbytes]; rfl
    _ = .ok (c, rest) := by
      simp [unicodeEscape, hexCode, hzero, hhigh, hlow, hcode, htrailing, hleading, bind,
        Except.bind]

/-! ## Written characters -/

/-- A character is written as an escape with a letter of its own, as an escape with two hexadecimal
digits, or as itself. -/
theorem writeChar_cases (c : Char) :
    (∃ letter : Char, 0x20 ≤ letter.toNat ∧ writeChar c = ['\\', letter] ∧
        ∀ rest, escape (Utf8.encode [letter] ++ rest) = .ok (c, rest)) ∨
      (c.toNat < 0x20 ∧ writeChar c = '\\' :: ['u', '0', '0', Ascii.hexDigit (c.toNat / 16),
        Ascii.hexDigit (c.toNat % 16)]) ∨
      (c ≠ '"' ∧ c ≠ '\\' ∧ 0x20 ≤ c.toNat ∧ writeChar c = [c]) := by
  by_cases hquote : c = '"'
  · exact .inl ⟨'"', by decide, by rw [hquote]; rfl, fun _ => by rw [hquote]; rfl⟩
  by_cases hbackslash : c = '\\'
  · exact .inl ⟨'\\', by decide, by rw [hbackslash]; rfl, fun _ => by rw [hbackslash]; rfl⟩
  by_cases hb : c = '\x08'
  · exact .inl ⟨'b', by decide, by rw [hb]; rfl, fun _ => by rw [hb]; rfl⟩
  by_cases hf : c = '\x0C'
  · exact .inl ⟨'f', by decide, by rw [hf]; rfl, fun _ => by rw [hf]; rfl⟩
  by_cases hn : c = '\n'
  · exact .inl ⟨'n', by decide, by rw [hn]; rfl, fun _ => by rw [hn]; rfl⟩
  by_cases hr : c = '\r'
  · exact .inl ⟨'r', by decide, by rw [hr]; rfl, fun _ => by rw [hr]; rfl⟩
  by_cases ht : c = '\t'
  · exact .inl ⟨'t', by decide, by rw [ht]; rfl, fun _ => by rw [ht]; rfl⟩
  by_cases hcontrol : c.toNat < 0x20
  · exact .inr (.inl ⟨hcontrol, by
      simp [writeChar, hquote, hbackslash, hb, hf, hn, hr, ht, hcontrol]⟩)
  · exact .inr (.inr ⟨hquote, hbackslash, Nat.le_of_not_lt hcontrol, by
      simp [writeChar, hquote, hbackslash, hb, hf, hn, hr, ht, hcontrol]⟩)

/-- A written character is read as its bytes, in no more steps than it is long. -/
theorem content_writeChar (c : Char) {bound : Nat}
    (hbound : (Utf8.encode (writeChar c)).length ≤ bound) (seen rest : Bytes) :
    ∃ left, bound ≤ left + (Utf8.encode (writeChar c)).length ∧
      content bound seen (Utf8.encode (writeChar c) ++ rest) =
        content left ((String.utf8EncodeChar c).reverse ++ seen) rest := by
  -- An escape takes one step for its backslash, and the rest of it is read at once.
  have hescaped : ∀ escaped : List Char, writeChar c = '\\' :: escaped →
      escape (Utf8.encode escaped ++ rest) = .ok (c, rest) →
      ∃ left, bound ≤ left + (Utf8.encode (writeChar c)).length ∧
        content bound seen (Utf8.encode (writeChar c) ++ rest) =
          content left ((String.utf8EncodeChar c).reverse ++ seen) rest := by
    intro escaped hwritten hread
    have hbytes : Utf8.encode (writeChar c) = Ascii.backslash :: Utf8.encode escaped := by
      rw [hwritten]
      rfl
    rw [hbytes, List.length_cons] at hbound ⊢
    obtain ⟨left, rfl⟩ : ∃ left, bound = left + 1 := ⟨bound - 1, by omega⟩
    exact ⟨left, by omega, content_escape hread left seen⟩
  rcases writeChar_cases c with ⟨letter, -, hwritten, hread⟩ | ⟨hcontrol, hwritten⟩ |
    ⟨hquote, hbackslash, hplain, hwritten⟩
  · exact hescaped _ hwritten (hread rest)
  · exact hescaped _ hwritten (escape_control hcontrol rest)
  · have hbytes : Utf8.encode (writeChar c) = String.utf8EncodeChar c := by
      rw [hwritten, Utf8.encode_cons, Utf8.encode_nil, List.append_nil]
    rw [hbytes] at hbound ⊢
    obtain ⟨left, rfl⟩ : ∃ left, bound = left + (String.utf8EncodeChar c).length :=
      ⟨bound - (String.utf8EncodeChar c).length, by omega⟩
    exact ⟨left, Nat.le_refl _, content_raw
      (fun b hb => isRaw_of_mem_encodeChar hquote hbackslash hplain hb) left seen rest⟩

/-! ## Written strings -/

theorem content_write (text : List Char) {bound : Nat}
    (hbound : (Utf8.encode (text.flatMap writeChar)).length < bound) (seen rest : Bytes) :
    content bound seen (Utf8.encode (text.flatMap writeChar) ++ Ascii.quote :: rest) =
      .ok (seen.reverse ++ Utf8.encode text, rest) := by
  induction text generalizing bound seen with
  | nil =>
      obtain ⟨left, rfl⟩ : ∃ left, bound = left + 1 := ⟨bound - 1, by omega⟩
      simp [content_quote]
  | cons c text ih =>
      rw [List.flatMap_cons, Utf8.encode_append, List.length_append] at hbound
      have hchar : (Utf8.encode (writeChar c)).length ≤ bound := by omega
      obtain ⟨left, hleft, hstep⟩ := content_writeChar c hchar seen
        (Utf8.encode (text.flatMap writeChar) ++ Ascii.quote :: rest)
      rw [List.flatMap_cons, Utf8.encode_append, List.append_assoc, hstep, ih (by omega),
        Utf8.encode_cons]
      simp

/-- A written string is read back, up to its closing quote. -/
theorem read_write (text : List Char) {bound : Nat}
    (hbound : (Utf8.encode (text.flatMap writeChar)).length < bound) (rest : Bytes) :
    read bound (Utf8.encode (text.flatMap writeChar) ++ Ascii.quote :: rest) =
      .ok (String.ofList text, rest) := by
  unfold read
  rw [content_write text hbound]
  simp [bind, Except.bind, Utf8.decodeString?_encode]

theorem le_of_mem_writeChar {c d : Char} (hd : d ∈ writeChar c) : 0x20 ≤ d.toNat := by
  have hdigit : ∀ n < 16, 0x20 ≤ (Ascii.hexDigit n).toNat := by decide
  rcases writeChar_cases c with ⟨letter, hletter, hwritten, -⟩ | ⟨hcontrol, hwritten⟩ |
    ⟨-, -, hplain, hwritten⟩
  · rw [hwritten] at hd
    simp only [List.mem_cons, List.not_mem_nil, or_false] at hd
    rcases hd with rfl | rfl
    · decide
    · exact hletter
  · rw [hwritten] at hd
    simp only [List.mem_cons, List.not_mem_nil, or_false] at hd
    rcases hd with rfl | rfl | rfl | rfl | rfl | rfl
    · decide
    · decide
    · decide
    · decide
    · exact hdigit _ (by omega)
    · exact hdigit _ (by omega)
  · rw [hwritten, List.mem_singleton] at hd
    rwa [hd]

/-- A written string holds no control character. -/
theorem le_of_mem_write {text : List Char} {d : Char} (hd : d ∈ write text) : 0x20 ≤ d.toNat := by
  simp only [write, List.mem_cons, List.mem_append, List.mem_flatMap, List.not_mem_nil,
    or_false] at hd
  rcases hd with (rfl | ⟨c, -, hd⟩) | rfl
  · decide
  · exact le_of_mem_writeChar hd
  · decide

end RemoteInput.Json.Quoted
