import RemoteInput.Text.Ascii

/-!
# UTF-8

A character is one to four bytes.  `Utf8.encode` writes a text and
`Utf8.decode` reads one back, refusing every sequence that is not the shortest
form of a character: a stray or missing continuation byte, an overlong form, a
surrogate, and anything past the last character.

The reader is structural on the bytes and keeps the characters it has read in
reverse, so a text of any length is read in constant stack.
-/

namespace RemoteInput.Utf8

/-! ## Writing -/

/-- The bytes of a text. -/
def encode (text : List Char) : Bytes := text.flatMap String.utf8EncodeChar

/-! ## Reading -/

/-- The bytes that may follow the first one of a character. -/
def isContinuation (b : UInt8) : Bool := 0x80 ≤ b && b ≤ 0xBF

/-- The code of a character of two bytes. -/
def code2 (a b : UInt8) : Nat := a.toNat % 32 * 64 + b.toNat % 64

/-- The code of a character of three bytes. -/
def code3 (a b c : UInt8) : Nat := (a.toNat % 16 * 64 + b.toNat % 64) * 64 + c.toNat % 64

/-- The code of a character of four bytes. -/
def code4 (a b c d : UInt8) : Nat :=
  ((a.toNat % 8 * 64 + b.toNat % 64) * 64 + c.toNat % 64) * 64 + d.toNat % 64

/-- Reads the rest of a text after the characters of `seen`, latest first.  A failure gives the
bytes from the first one of the sequence that is no character. -/
def decodeAfter (seen : List Char) : Bytes → Except Bytes (List Char)
  | [] => .ok seen.reverse
  | a :: rest =>
    if a < 0x80 then decodeAfter (Char.ofNat a.toNat :: seen) rest
    else if a < 0xC0 then .error (a :: rest)
    else
      match rest with
      | [] => .error [a]
      | b :: s =>
        if !isContinuation b then .error (a :: b :: s)
        else if a < 0xE0 then
          if code2 a b < 0x80 then .error (a :: b :: s)
          else decodeAfter (Char.ofNat (code2 a b) :: seen) s
        else
          match s with
          | [] => .error [a, b]
          | c :: s =>
            if !isContinuation c then .error (a :: b :: c :: s)
            else if a < 0xF0 then
              if code3 a b c < 0x800 || !(code3 a b c).isValidChar then .error (a :: b :: c :: s)
              else decodeAfter (Char.ofNat (code3 a b c) :: seen) s
            else if a < 0xF8 then
              match s with
              | [] => .error [a, b, c]
              | d :: s =>
                if !isContinuation d then .error (a :: b :: c :: d :: s)
                else if code4 a b c d < 0x10000 || !(code4 a b c d).isValidChar then
                  .error (a :: b :: c :: d :: s)
                else decodeAfter (Char.ofNat (code4 a b c d) :: seen) s
            else .error (a :: b :: c :: s)

/-- The text that `s` is the UTF-8 form of, or the bytes from the first one that is not part of a
character. -/
def decode (s : Bytes) : Except Bytes (List Char) := decodeAfter [] s

/-- The text of `s` as a string, if there is one. -/
def decodeString? (s : Bytes) : Option String := (decode s).toOption.map String.ofList

/-- The bytes from the first one that is not part of a character. -/
def dropText (s : Bytes) : Bytes :=
  match decode s with
  | .ok _ => []
  | .error rest => rest

/-! ## Tests -/

example : (decode [0xC0, 0x80]).toOption = none := by decide
example : (decode [0xED, 0xA0, 0x80]).toOption = none := by decide
example : dropText [0x61, 0xC3, 0xA9, 0xE2, 0x82, 0x22] = [0xE2, 0x82, 0x22] := by decide

end RemoteInput.Utf8
