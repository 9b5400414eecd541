import Mathlib.Data.List.TakeWhile
import RemoteInput.Event.Encode
import RemoteInput.Json.Reader
import RemoteInput.Proofs.Digits
import RemoteInput.Proofs.Number
import RemoteInput.Proofs.Utf8

/-!
# Reading a printed number back

A double is printed with digits and at most a sign, a point and an exponent.
So its text starts a number for the reader of values, and holds no byte that
could end one (`valueWith_number`).

`Encode.reread` is the double that the reader makes of the whole text.  It need
not be the one that was printed, and there may be none: the reader multiplies
or divides by a power of ten, which rounds, and may pass the greatest double.
Inside a message the text is read in the same way, since what follows it is no
part of a number (`value_number`).
-/

namespace RemoteInput

namespace Encode

/-- The double that a printed double is read back as, if it is read at all. -/
def reread (x : Float) : Option Float :=
  match Json.read (Utf8.encode (number x)) with
  | .ok (.number y) => some y
  | _ => none

/-- The bytes of a printed double after its sign. -/
def unsigned (x : Float) : Bytes := Utf8.encode (Decimal.write .message (Decimal.shortest x))

end Encode

/-! ## The characters of a printed number -/

namespace Decimal

/-- The characters that a double is printed with. -/
def isNumberChar (c : Char) : Bool := c.isDigit || c == '.' || c == '+' || c == '-' || c == 'e'

theorem isNumberChar_of_mem_toDigits {n : Nat} {c : Char} (h : c ∈ Nat.toDigits 10 n) :
    isNumberChar c = true := by
  simp [isNumberChar, isDigit_toDigits n c h]

theorem isNumberChar_positional {digits : List Char} (h : ∀ c ∈ digits, isNumberChar c = true)
    (point : Int) : ∀ c ∈ positional digits point, isNumberChar c = true := by
  intro c hc
  unfold positional at hc
  split at hc
  · simp only [List.mem_append, List.mem_cons, List.not_mem_nil, or_false,
      List.mem_replicate] at hc
    rcases hc with ((rfl | rfl) | ⟨-, rfl⟩) | hc
    · decide
    · decide
    · decide
    · exact h c hc
  · split at hc
    · simp only [List.mem_append, List.mem_cons, List.not_mem_nil, or_false,
        List.mem_replicate] at hc
      rcases hc with (hc | ⟨-, rfl⟩) | rfl | rfl
      · exact h c hc
      · decide
      · decide
      · decide
    · simp only [List.mem_append, List.mem_cons] at hc
      rcases hc with hc | rfl | hc
      · exact h c (List.mem_of_mem_take hc)
      · decide
      · exact h c (List.mem_of_mem_drop hc)

theorem isNumberChar_exponential {digits : List Char} (h : ∀ c ∈ digits, isNumberChar c = true)
    (point : Int) : ∀ c ∈ exponential digits point, isNumberChar c = true := by
  intro c hc
  simp only [exponential, List.mem_append, List.mem_cons] at hc
  rcases hc with hc | rfl | rfl | hc
  · split at hc
    · rw [List.mem_singleton.mp hc]
      decide
    · exact h c hc
    · simp only [List.mem_cons] at hc
      rcases hc with rfl | rfl | hc
      · exact h _ (List.mem_cons_self ..)
      · decide
      · exact h c (List.mem_cons_of_mem _ hc)
  · decide
  · split <;> decide
  · exact isNumberChar_of_mem_toDigits hc

theorem isNumberChar_write (style : Style) (d : Decimal) :
    ∀ c ∈ write style d, isNumberChar c = true := by
  simp only [write]
  split
  · exact isNumberChar_positional (fun c hc => isNumberChar_of_mem_toDigits hc) _
  · exact isNumberChar_exponential (fun c hc => isNumberChar_of_mem_toDigits hc) _

theorem isNumberChar_writeFloat (style : Style) (x : Float) :
    ∀ c ∈ writeFloat style x, isNumberChar c = true := by
  intro c hc
  simp only [writeFloat] at hc
  split at hc
  · rcases List.mem_cons.mp hc with rfl | hc
    · decide
    · exact isNumberChar_write style _ c hc
  · exact isNumberChar_write style _ c hc

/-- A decimal is printed with a digit in front. -/
theorem head_write (style : Style) (d : Decimal) :
    ∃ c cs, write style d = c :: cs ∧ c.isDigit = true := by
  obtain ⟨c, cs, hcs⟩ := toDigits_cons d.digits
  have hc : c.isDigit = true := isDigit_toDigits d.digits c (hcs ▸ List.mem_cons_self ..)
  simp only [write, hcs]
  split
  · unfold positional
    split
    · exact ⟨'0', _, rfl, rfl⟩
    · split
      · exact ⟨c, _, rfl, hc⟩
      · obtain ⟨k, hk⟩ : ∃ k, (d.exponent + ((c :: cs).length : Nat)).natAbs = k + 1 :=
          ⟨_, (Nat.succ_pred_eq_of_pos (by omega)).symm⟩
        rw [hk]
        exact ⟨c, _, rfl, hc⟩
  · cases cs with
    | nil => exact ⟨c, _, rfl, hc⟩
    | cons c' cs => exact ⟨c, _, rfl, hc⟩

end Decimal

/-! ## The bytes of a printed number -/

namespace Json.Number

/-- A character of a printed number is one byte, which may be part of a number. -/
theorem encodeChar_numberChar {c : Char} (h : Decimal.isNumberChar c = true) :
    ∃ b, String.utf8EncodeChar c = [b] ∧ isNumberByte b = true ∧
      (c.isDigit = true → Ascii.isDigit b = true) := by
  by_cases hdigit : c.isDigit = true
  · have hrange : 48 ≤ c.toNat ∧ c.toNat ≤ 57 := by
      simpa [Char.isDigit, UInt32.le_iff_toNat_le] using hdigit
    have hbyte : Ascii.isDigit (UInt8.ofNat c.toNat) = true := by
      simp [Ascii.isDigit, Ascii.zero, UInt8.le_iff_toNat_le]
      omega
    exact ⟨_, Utf8.encodeChar_ascii (by omega), by simp [isNumberByte, hbyte], fun _ => hbyte⟩
  · simp only [Decimal.isNumberChar, hdigit, Bool.false_or, Bool.or_eq_true, beq_iff_eq] at h
    rcases h with ((rfl | rfl) | rfl) | rfl
    · exact ⟨Ascii.point, rfl, rfl, fun hd => absurd hd hdigit⟩
    · exact ⟨Ascii.plus, rfl, rfl, fun hd => absurd hd hdigit⟩
    · exact ⟨Ascii.minus, rfl, rfl, fun hd => absurd hd hdigit⟩
    · exact ⟨0x65, rfl, rfl, fun hd => absurd hd hdigit⟩

theorem isNumberByte_of_mem_encode {text : List Char}
    (h : ∀ c ∈ text, Decimal.isNumberChar c = true) :
    ∀ b ∈ Utf8.encode text, isNumberByte b = true := by
  intro b hb
  obtain ⟨c, hc, hb⟩ := List.mem_flatMap.mp hb
  obtain ⟨b', heq, hnumber, -⟩ := encodeChar_numberChar (h c hc)
  rw [heq, List.mem_singleton] at hb
  rwa [hb]

theorem isNumberByte_of_mem_unsigned (x : Float) :
    ∀ b ∈ Encode.unsigned x, isNumberByte b = true :=
  isNumberByte_of_mem_encode (Decimal.isNumberChar_write .message (Decimal.shortest x))

/-- A printed number starts with a digit after its sign. -/
theorem unsigned_cons (x : Float) :
    ∃ b t, Encode.unsigned x = b :: t ∧ Ascii.isDigit b = true := by
  obtain ⟨c, cs, hcs, hdigit⟩ := Decimal.head_write .message (Decimal.shortest x)
  have hchar := Decimal.isNumberChar_write .message (Decimal.shortest x) c
    (hcs ▸ List.mem_cons_self ..)
  obtain ⟨b, hb, -, hbdigit⟩ := encodeChar_numberChar hchar
  refine ⟨b, Utf8.encode cs, ?_, hbdigit hdigit⟩
  rw [Encode.unsigned, hcs, Utf8.encode_cons, hb, List.singleton_append]

/-- A printed number has a minus sign if its sign bit is set. -/
theorem encode_number (x : Float) :
    Utf8.encode (Encode.number x) =
      if Binary.isNegative x then Ascii.minus :: Encode.unsigned x else Encode.unsigned x := by
  unfold Encode.number Decimal.writeFloat
  cases Binary.isNegative x <;> rfl

end Json.Number

/-! ## A number as a value -/

namespace Json.Reader

theorem skipBlank_cons {b : UInt8} (h : isBlank b = false) (s : Bytes) :
    skipBlank (b :: s) = b :: s := by
  rw [skipBlank, List.dropWhile_cons_of_neg (by simp [h])]

theorem skipBlank_eq_nil {t : Bytes} : skipBlank t = [] ↔ ∀ b ∈ t, isBlank b = true :=
  List.dropWhile_eq_nil_iff

/-- No byte of a number is blank. -/
theorem isBlank_of_isNumberByte {b : UInt8} (h : Number.isNumberByte b = true) :
    isBlank b = false := by
  cases hb : isBlank b with
  | false => rfl
  | true =>
      simp only [isBlank, Bool.or_eq_true, beq_iff_eq] at hb
      rcases hb with ((rfl | rfl) | rfl) | rfl
      · exact absurd h (by decide)
      · exact absurd h (by decide)
      · exact absurd h (by decide)
      · exact absurd h (by decide)

theorem valueWith_digit {b : UInt8} (h : Ascii.isDigit b = true) (bound : Nat)
    (deeper : Option ValueReader) (s : Bytes) :
    valueWith bound deeper (b :: s) =
      (do
        let (x, s) ← Number.read false (b :: s)
        return (.number x, s)) := by
  have hblank : isBlank b = false := isBlank_of_isNumberByte (by simp [Number.isNumberByte, h])
  have hne : ∀ c : UInt8, Ascii.isDigit c = false → b ≠ c := by
    intro c hc heq
    rw [heq, hc] at h
    exact absurd h (by decide)
  rw [valueWith, skipBlank_cons hblank]
  split
  case h_9 heq =>
      cases heq
      rw [if_pos h]
  case h_1 heq => cases heq
  all_goals
    next heq => exact absurd (List.cons.inj heq).1 (hne _ rfl)

theorem valueWith_minus (bound : Nat) (deeper : Option ValueReader) (s : Bytes) :
    valueWith bound deeper (Ascii.minus :: s) =
      (do
        let (x, s) ← Number.read true s
        return (.number x, s)) := rfl

/-- The reader of values reads a printed number as a number. -/
theorem valueWith_number (x : Float) (bound : Nat) (deeper : Option ValueReader) (rest : Bytes) :
    valueWith bound deeper (Utf8.encode (Encode.number x) ++ rest) =
      (do
        let (y, s) ← Number.read (Binary.isNegative x) (Encode.unsigned x ++ rest)
        return (.number y, s)) := by
  rw [Number.encode_number]
  cases Binary.isNegative x with
  | false =>
      obtain ⟨b, t, hcons, hdigit⟩ := Number.unsigned_cons x
      rw [hcons]
      exact valueWith_digit hdigit bound deeper (t ++ rest)
  | true => exact valueWith_minus bound deeper (Encode.unsigned x ++ rest)

/-! ## Inside a message -/

section Makes

variable {α β : Type}

/-- Whether a reader takes some bytes for something, whatever comes next that is no part of a
number. -/
def Reads (read : Bytes → Except Fault (α × Bytes)) (bytes : Bytes) (a : α) : Prop :=
  ∀ rest, Number.Stops rest → read (bytes ++ rest) = .ok (a, rest)

/-- Whether a reader that takes the start of some bytes for something stops before a byte of a
number, and so before they are over. -/
def Jams (read : Bytes → Except Fault (α × Bytes)) (bytes : Bytes) : Prop :=
  ∀ rest a s, Number.Stops rest → read (bytes ++ rest) = .ok (a, s) →
    ∃ b s', s = b :: s' ∧ Number.isNumberByte b = true

/-- What a reader makes of some bytes.  If it is nothing, no other token can follow. -/
def Makes (read : Bytes → Except Fault (α × Bytes)) (bytes : Bytes) : Option α → Prop
  | some a => Reads read bytes a
  | none => Jams read bytes

/-- What a reader makes of some bytes, changed. -/
theorem Makes.map {read : Bytes → Except Fault (α × Bytes)} {bytes : Bytes} {a? : Option α}
    (h : Makes read bytes a?) (f : α → β) :
    Makes (fun s => read s >>= fun r => .ok (f r.1, r.2)) bytes (a?.map f) := by
  cases a? with
  | some a =>
      intro rest hstops
      show (read (bytes ++ rest) >>= fun r => Except.ok (f r.1, r.2)) = _
      rw [h rest hstops]
      rfl
  | none =>
      intro rest b s hstops hread
      change (read (bytes ++ rest) >>= fun r => Except.ok (f r.1, r.2)) = _ at hread
      cases hr : read (bytes ++ rest) with
      | error e =>
          rw [hr] at hread
          cases hread
      | ok r =>
          rw [hr] at hread
          cases hread
          exact h rest r.1 r.2 hstops hr

theorem Makes.prefixed {read : Bytes → Except Fault (α × Bytes)} {first bytes : Bytes}
    {a? : Option α} (h : Makes (fun s => read (first ++ s)) bytes a?) :
    Makes read (first ++ bytes) a? := by
  cases a? with
  | some a =>
      intro rest hstops
      rw [List.append_assoc]
      exact h rest hstops
  | none =>
      intro rest a s hstops hread
      rw [List.append_assoc] at hread
      exact h rest a s hstops hread

/-- A reader and what comes after it, which cannot start at a byte of a number. -/
theorem Makes.toOption_bind {read : Bytes → Except Fault (α × Bytes)} {bytes : Bytes}
    {a? : Option α} (h : Makes read bytes a?) {next : α × Bytes → Except Fault β}
    (hnext : ∀ a b s, Number.isNumberByte b = true → (next (a, b :: s)).toOption = none)
    {rest : Bytes} (hstops : Number.Stops rest) :
    (read (bytes ++ rest) >>= next).toOption = a?.bind fun a => (next (a, rest)).toOption := by
  cases a? with
  | some a =>
      rw [h rest hstops]
      rfl
  | none =>
      cases hread : read (bytes ++ rest) with
      | error e => rfl
      | ok r =>
          obtain ⟨a, s⟩ := r
          obtain ⟨b, s', rfl, hb⟩ := h rest a s hstops hread
          exact hnext a b s' hb

end Makes

/-- What the number reader leaves of a printed number starts with a byte of a number. -/
theorem isNumberByte_of_read {x y : Float} {s : Bytes} {b : UInt8}
    (hread : Number.read (Binary.isNegative x) (Encode.unsigned x) = .ok (y, b :: s)) :
    Number.isNumberByte b = true :=
  Number.isNumberByte_of_mem_unsigned x b
    ((Number.read_leaves _ _ y (b :: s) hread).subset (List.mem_cons_self ..))

/-- A printed number alone is read as what the number reader makes of all of it. -/
theorem reread_eq (x : Float) :
    Encode.reread x =
      match Number.read (Binary.isNegative x) (Encode.unsigned x) with
      | .ok (y, []) => some y
      | _ => none := by
  -- With nothing after it, the text is a whole document.
  have halone : ∀ bound, value bound maxDepth (Utf8.encode (Encode.number x)) =
      (do
        let (y, s) ← Number.read (Binary.isNegative x) (Encode.unsigned x)
        return (.number y, s)) := by
    intro bound
    have hnil := valueWith_number x bound (some (value bound 126)) []
    rwa [List.append_nil, List.append_nil] at hnil
  simp only [Encode.reread, Json.read, document, halone]
  cases hread : Number.read (Binary.isNegative x) (Encode.unsigned x) with
  | error e => rfl
  | ok r =>
      obtain ⟨y, s⟩ := r
      cases s with
      | nil => rfl
      | cons b s =>
          have hblank := isBlank_of_isNumberByte (isNumberByte_of_read hread)
          simp only [bind, Except.bind, pure, Except.pure, skipBlank_cons hblank]
          rfl

/-- A printed number is read in a message as it is read alone. -/
theorem value_number (x : Float) (bound : Nat) (deeper : Option ValueReader) :
    Makes (valueWith bound deeper) (Utf8.encode (Encode.number x))
      ((Encode.reread x).map .number) := by
  rw [reread_eq x]
  -- The reader refuses the text, takes all of it, or stops inside it, and what follows the text
  -- changes none of the three.
  cases hown : Number.read (Binary.isNegative x) (Encode.unsigned x) with
  | error e =>
      intro rest v s hstops hread
      have happend := Number.read_append hstops (Binary.isNegative x) (Encode.unsigned x)
      rw [hown] at happend
      rw [valueWith_number] at hread
      cases hnumber : Number.read (Binary.isNegative x) (Encode.unsigned x ++ rest) with
      | error e' =>
          rw [hnumber] at hread
          cases hread
      | ok r =>
          rw [hnumber] at happend
          cases happend
  | ok r =>
      obtain ⟨y, left⟩ := r
      have hnumber : ∀ rest, Number.Stops rest →
          Number.read (Binary.isNegative x) (Encode.unsigned x ++ rest) =
            .ok (y, left ++ rest) := by
        intro rest hstops
        have happend := Number.read_append hstops (Binary.isNegative x) (Encode.unsigned x)
        rw [hown] at happend
        exact Number.eq_ok_of_toOption happend
      cases left with
      | nil =>
          intro rest hstops
          rw [valueWith_number, hnumber rest hstops]
          rfl
      | cons b left =>
          intro rest v s hstops hread
          rw [valueWith_number, hnumber rest hstops] at hread
          cases hread
          exact ⟨b, left ++ rest, rfl, isNumberByte_of_read hown⟩

end Json.Reader

end RemoteInput
