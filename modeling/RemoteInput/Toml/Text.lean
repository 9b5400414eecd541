import RemoteInput.Text.Digits

/-!
# Texts in TOML

A string stands between double quotes, where a backslash starts an escape, or
between single quotes, where nothing does.  Three quotes instead of one let it
run over several lines.  Then a line feed right after the opening quotes is
dropped, up to two quotes may stand anywhere, also before the closing ones, and
between double quotes a backslash at the end of a line drops the blanks that
follow.  A carriage return is only allowed before a line feed, and the two are
read as a line feed.

Every reader gets the characters of a document that are left and gives those
that it leaves.  Loops take a bound on their steps, for which the number of
characters is enough.
-/

namespace RemoteInput.Toml.Text

/-! ## Characters -/

/-- The blanks within a line. -/
def isBlank (c : Char) : Bool := c = ' ' || c = '\t'

/-- The characters outside ASCII, all of which may stand in texts and comments. -/
def isWide (c : Char) : Bool := 0x80 ≤ c.toNat

/-- The characters of a comment. -/
def isPlain (c : Char) : Bool := c = '\t' || (' ' ≤ c && c ≤ '~') || isWide c

/-- The characters that stand for themselves between double quotes. -/
def isBasic (c : Char) : Bool := isPlain c && c ≠ '"' && c ≠ '\\'

/-- The characters between single quotes. -/
def isLiteral (c : Char) : Bool := isPlain c && c ≠ '\x27'

/-- The characters of a key without quotes. -/
def isBare (c : Char) : Bool := c.isAlphanum || c = '_' || c = '-'

/-! ## Blanks, line ends and comments -/

/-- The text after the blanks within a line. -/
def skipBlank (s : List Char) : List Char := s.dropWhile isBlank

/-- The text after a line end. -/
def lineEnd? : List Char → Option (List Char)
  | '\n' :: s => some s
  | '\r' :: '\n' :: s => some s
  | _ => none

/-- The text after a comment, if there is one. -/
def skipComment : List Char → List Char
  | '#' :: s => s.dropWhile isPlain
  | s => s

/-- The text after the rest of a line that holds only blanks and a comment. -/
def finishLine? (s : List Char) : Option (List Char) :=
  match skipComment (skipBlank s) with
  | [] => some []
  | s => lineEnd? s

/-- The text after blanks, comments and line ends, as they may stand in an array. -/
def skipLines : Nat → List Char → List Char
  | 0, s => s
  | bound + 1, s =>
    let s := skipBlank s
    match lineEnd? (skipComment s) with
    | some t => skipLines bound t
    | none => s

/-- The text after blanks and line ends. -/
def skipBlankLines : Nat → List Char → List Char
  | 0, s => s
  | bound + 1, s =>
    let s := skipBlank s
    match lineEnd? s with
    | some t => skipBlankLines bound t
    | none => s

/-! ## Escapes -/

/-- Reads the code of a character in a number of hexadecimal digits. -/
def hexCode (value : Nat) : Nat → List Char → Option (Char × List Char)
  | 0, s => if value.isValidChar then some (Char.ofNat value, s) else none
  | _ + 1, [] => none
  | digits + 1, c :: s =>
    match Digits.hexValue? c with
    | some d => hexCode (value * 16 + d) digits s
    | none => none

/-- Reads an escape after its backslash. -/
def escape : List Char → Option (Char × List Char)
  | 'b' :: s => some ('\x08', s)
  | 't' :: s => some ('\t', s)
  | 'n' :: s => some ('\n', s)
  | 'f' :: s => some ('\x0C', s)
  | 'r' :: s => some ('\r', s)
  | '"' :: s => some ('"', s)
  | '\\' :: s => some ('\\', s)
  | 'u' :: s => hexCode 0 4 s
  | 'U' :: s => hexCode 0 8 s
  | _ => none

/-! ## One line -/

/-- Reads a text after its opening double quote. -/
def basic : Nat → List Char → List Char → Option (List Char × List Char)
  | 0, _, _ => none
  | _ + 1, _, [] => none
  | _ + 1, seen, '"' :: s => some (seen.reverse, s)
  | bound + 1, seen, '\\' :: s => do
    let (c, s) ← escape s
    basic bound (c :: seen) s
  | bound + 1, seen, c :: s => if isBasic c then basic bound (c :: seen) s else none

/-- Reads a text after its opening single quote. -/
def literal (s : List Char) : Option (List Char × List Char) :=
  match s.dropWhile isLiteral with
  | '\x27' :: rest => some (s.takeWhile isLiteral, rest)
  | _ => none

/-! ## Several lines -/

/-- The number of quotes that a text starts with. -/
def quoteRun (quote : Char) (s : List Char) : Nat := (s.takeWhile (· = quote)).length

/-- The text after the first line end, if it starts with one. -/
def dropLineEnd (s : List Char) : List Char := (lineEnd? s).getD s

/-- Reads a text of several lines after its opening quotes.  Between double quotes, `escapes` is
set. -/
def lines (quote : Char) (escapes : Bool) : Nat → List Char → List Char →
    Option (List Char × List Char)
  | 0, _, _ => none
  | bound + 1, seen, s =>
    match lineEnd? s with
    | some t => lines quote escapes bound ('\n' :: seen) t
    | none =>
      match s with
      | [] => none
      | c :: t =>
        if c = quote then
          let run := quoteRun quote s
          if 3 ≤ run then
            let inside := min (run - 3) 2
            some ((List.replicate inside quote ++ seen).reverse, s.drop (inside + 3))
          else lines quote escapes bound (c :: seen) t
        else if escapes && c = '\\' then
          match lineEnd? (skipBlank t) with
          | some t => lines quote escapes bound seen (skipBlankLines bound t)
          | none =>
            match escape t with
            | some (c, t) => lines quote escapes bound (c :: seen) t
            | none => none
        else if isPlain c then lines quote escapes bound (c :: seen) t
        else none

/-! ## Any text -/

/-- Reads a text with its quotes. -/
def quoted (bound : Nat) : List Char → Option (String × List Char)
  | '"' :: '"' :: '"' :: s => do
    let (cs, s) ← lines '"' true bound [] (dropLineEnd s)
    return (String.ofList cs, s)
  | '\x27' :: '\x27' :: '\x27' :: s => do
    let (cs, s) ← lines '\x27' false bound [] (dropLineEnd s)
    return (String.ofList cs, s)
  | '"' :: s => do
    let (cs, s) ← basic bound [] s
    return (String.ofList cs, s)
  | '\x27' :: s => do
    let (cs, s) ← literal s
    return (String.ofList cs, s)
  | _ => none

end RemoteInput.Toml.Text
