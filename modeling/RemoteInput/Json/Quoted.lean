import RemoteInput.Json.Fault
import RemoteInput.Text.Utf8

/-!
# JSON strings

Between its quotes a string holds raw UTF-8 and escapes.  The reader first
replaces the escapes by the bytes they stand for, up to the closing quote, and
then checks that the result is UTF-8.  So bytes that are not are found only
after the closing quote.  Their place is found by going back from there, one
place for each byte of the result from the first bad one on.  An escape among
these counts as the bytes it stands for, which are fewer than those it is
written with.

The writer escapes the quote, the backslash and the control characters, and
writes all else raw.  What it writes holds no control character, in particular
no line feed.
-/

namespace RemoteInput.Json.Quoted

open Ascii (hexValue? hexDigit)

/-! ## Reading -/

/-- Reads four hexadecimal digits. -/
def hexCode : Bytes → Except Fault (Nat × Bytes)
  | a :: b :: c :: d :: s =>
    match hexValue? a, hexValue? b, hexValue? c, hexValue? d with
    | some a, some b, some c, some d => .ok (((a * 16 + b) * 16 + c) * 16 + d, s)
    | _, _, _, _ => .error ⟨.invalidEscape, s⟩
  | _ => .error ⟨.endInString, []⟩

/-- The first halves of the pairs that stand for the characters above `U+FFFF`. -/
def isLeading (n : Nat) : Bool := 0xD800 ≤ n && n ≤ 0xDBFF

/-- The second halves. -/
def isTrailing (n : Nat) : Bool := 0xDC00 ≤ n && n ≤ 0xDFFF

/-- Reads the escape that has to follow a first half. -/
def secondHalf : Bytes → Except Fault (Nat × Bytes)
  | [] => .error ⟨.endInString, []⟩
  | Ascii.backslash :: [] => .error ⟨.endInString, []⟩
  | Ascii.backslash :: Ascii.letterU :: s => hexCode s
  | Ascii.backslash :: _ :: s => .error ⟨.unexpectedEndOfEscape, s⟩
  | _ :: s => .error ⟨.unexpectedEndOfEscape, s⟩

/-- Reads the digits of a `\u` escape, and the second escape of a pair. -/
def unicodeEscape (s : Bytes) : Except Fault (Char × Bytes) := do
  let (n, s) ← hexCode s
  if isTrailing n then .error ⟨.loneSurrogate, s⟩
  else if isLeading n then
    let (m, s) ← secondHalf s
    if isTrailing m then .ok (Char.ofNat (0x10000 + (n - 0xD800) * 0x400 + (m - 0xDC00)), s)
    else .error ⟨.loneSurrogate, s⟩
  else .ok (Char.ofNat n, s)

/-- Reads an escape after its backslash. -/
def escape : Bytes → Except Fault (Char × Bytes)
  | [] => .error ⟨.endInString, []⟩
  | Ascii.quote :: s => .ok ('"', s)
  | Ascii.backslash :: s => .ok ('\\', s)
  | Ascii.slash :: s => .ok ('/', s)
  | Ascii.letterB :: s => .ok ('\x08', s)
  | Ascii.letterF :: s => .ok ('\x0C', s)
  | Ascii.letterN :: s => .ok ('\n', s)
  | Ascii.letterR :: s => .ok ('\r', s)
  | Ascii.letterT :: s => .ok ('\t', s)
  | Ascii.letterU :: s => unicodeEscape s
  | _ :: s => .error ⟨.invalidEscape, s⟩

/-- Reads a string after its opening quote and up to its closing one, in at most `bound` steps, and
gives its bytes after those of `seen`, latest first. -/
def content : Nat → Bytes → Bytes → Except Fault (Bytes × Bytes)
  | 0, _, _ => .error ⟨.endInString, []⟩
  | _ + 1, _, [] => .error ⟨.endInString, []⟩
  | _ + 1, seen, Ascii.quote :: s => .ok (seen.reverse, s)
  | bound + 1, seen, Ascii.backslash :: s => do
    let (c, s) ← escape s
    content bound ((String.utf8EncodeChar c).reverse ++ seen) s
  | bound + 1, seen, b :: s =>
    if b < 0x20 then .error ⟨.controlCharacter, s⟩ else content bound (b :: seen) s

/-- The last bytes of a text, in a given number. -/
def lastBytes (text : Bytes) (count : Nat) : Bytes := text.drop (text.length - count)

/-- Reads a string after its opening quote. -/
def read (bound : Nat) (start : Bytes) : Except Fault (String × Bytes) := do
  let (bytes, s) ← content bound [] start
  match Utf8.decodeString? bytes with
  | some text => .ok (text, s)
  | none =>
    .error ⟨.invalidCodePoint, lastBytes start (s.length + (Utf8.dropText bytes).length)⟩

/-! ## Writing -/

/-- The written form of a character. -/
def writeChar (c : Char) : List Char :=
  if c = '"' then ['\\', '"']
  else if c = '\\' then ['\\', '\\']
  else if c = '\x08' then ['\\', 'b']
  else if c = '\x0C' then ['\\', 'f']
  else if c = '\n' then ['\\', 'n']
  else if c = '\r' then ['\\', 'r']
  else if c = '\t' then ['\\', 't']
  else if c.toNat < 0x20 then
    ['\\', 'u', '0', '0', hexDigit (c.toNat / 16), hexDigit (c.toNat % 16)]
  else [c]

/-- The written form of a text, quotes included. -/
def write (text : List Char) : List Char := '"' :: text.flatMap writeChar ++ ['"']

/-! ## Tests -/

example : (content 9 [] [0x41, 0x5C, 0x78, 0x22]).toOption = none := by decide
example : write ['a', '\n', '\x01', '"'] =
    ['"', 'a', '\\', 'n', '\\', 'u', '0', '0', '0', '1', '\\', '"', '"'] := by decide

end RemoteInput.Json.Quoted
