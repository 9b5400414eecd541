import RemoteInput.Json.Value
import RemoteInput.Json.Number
import RemoteInput.Json.Quoted

/-!
# Reading JSON

`Json.read` reads a whole text as one value.  Brackets nest at most
`maxDepth` deep.

The reader of values is defined by recursion on the depth that is still
allowed.  One level of it, `valueWith`, gets the reader of the next level as an
argument, or nothing at the deepest one.  The loops over the items of an array
and the members of an object take a bound on their steps.  Each step reads at
least a comma, so the length of the text is bound enough and is never reached.
-/

namespace RemoteInput.Json.Reader

/-- A reader of values: a value and the bytes it left, or a fault. -/
abbrev ValueReader := Bytes → Except Fault (Json × Bytes)

/-! ## Blanks and words -/

/-- The bytes that may stand between the tokens: space, line feed, tab and carriage return. -/
def isBlank (b : UInt8) : Bool :=
  b == Ascii.space || b == Ascii.newline || b == Ascii.tab || b == Ascii.carriageReturn

/-- The bytes from the first one that is not blank. -/
def skipBlank (s : Bytes) : Bytes := s.dropWhile isBlank

/-- Reads the rest of a word that stands for a value. -/
def word (value : Json) : Bytes → Bytes → Except Fault (Json × Bytes)
  | [], s => .ok (value, s)
  | _ :: _, [] => .error ⟨.endInValue, []⟩
  | w :: ws, b :: s => if b == w then word value ws s else .error ⟨.expectedIdent, s⟩

/-! ## Arrays and objects

Each takes the reader of the values inside. -/

/-- Reads an array after its first items, which are in `seen`, latest first. -/
def items (value : ValueReader) : Nat → List Json → Bytes → Except Fault (List Json × Bytes)
  | 0, _, _ => .error ⟨.endInList, []⟩
  | bound + 1, seen, s =>
    match skipBlank s with
    | [] => .error ⟨.endInList, []⟩
    | Ascii.closeBracket :: s => .ok (seen.reverse, s)
    | Ascii.comma :: s =>
      match skipBlank s with
      | [] => .error ⟨.endInValue, []⟩
      | Ascii.closeBracket :: s => .error ⟨.trailingComma, s⟩
      | s => do
        let (v, s) ← value s
        items value bound (v :: seen) s
    | _ :: s => .error ⟨.expectedListCommaOrEnd, s⟩

/-- Reads an array after its opening bracket. -/
def array (bound : Nat) (value : ValueReader) (s : Bytes) :
    Except Fault (List Json × Bytes) :=
  match skipBlank s with
  | [] => .error ⟨.endInList, []⟩
  | Ascii.closeBracket :: s => .ok ([], s)
  | s => do
    let (v, s) ← value s
    items value bound [v] s

/-- Reads a member after the opening quote of its name. -/
def member (bound : Nat) (value : ValueReader) (s : Bytes) :
    Except Fault ((String × Json) × Bytes) := do
  let (name, s) ← Quoted.read bound s
  match skipBlank s with
  | [] => .error ⟨.endInObject, []⟩
  | Ascii.colon :: s => do
    let (v, s) ← value s
    return ((name, v), s)
  | _ :: s => .error ⟨.expectedColon, s⟩

/-- Reads an object after its first members, which are in `seen`, latest first. -/
def members (whole : Nat) (value : ValueReader) :
    Nat → Members → Bytes → Except Fault (Members × Bytes)
  | 0, _, _ => .error ⟨.endInObject, []⟩
  | bound + 1, seen, s =>
    match skipBlank s with
    | [] => .error ⟨.endInObject, []⟩
    | Ascii.closeBrace :: s => .ok (seen.reverse, s)
    | Ascii.comma :: s =>
      match skipBlank s with
      | [] => .error ⟨.endInValue, []⟩
      | Ascii.quote :: s => do
        let (m, s) ← member whole value s
        members whole value bound (m :: seen) s
      | Ascii.closeBrace :: s => .error ⟨.trailingComma, s⟩
      | _ :: s => .error ⟨.keyNotString, s⟩
    | _ :: s => .error ⟨.expectedObjectCommaOrEnd, s⟩

/-- Reads an object after its opening brace. -/
def object (bound : Nat) (value : ValueReader) (s : Bytes) :
    Except Fault (Members × Bytes) :=
  match skipBlank s with
  | [] => .error ⟨.endInObject, []⟩
  | Ascii.closeBrace :: s => .ok ([], s)
  | Ascii.quote :: s => do
    let (m, s) ← member bound value s
    members bound value bound [m] s
  | _ :: s => .error ⟨.keyNotString, s⟩

/-! ## Values -/

/-- Reads one value, given the reader of the values one level deeper if there may be any. -/
def valueWith (bound : Nat) (deeper : Option ValueReader) (s : Bytes) :
    Except Fault (Json × Bytes) :=
  match skipBlank s with
  | [] => .error ⟨.endInValue, []⟩
  | Ascii.letterN :: s => word .null [0x75, 0x6C, 0x6C] s
  | Ascii.letterT :: s => word (.boolean true) [0x72, 0x75, 0x65] s
  | Ascii.letterF :: s => word (.boolean false) [0x61, 0x6C, 0x73, 0x65] s
  | Ascii.quote :: s => do
    let (text, s) ← Quoted.read bound s
    return (.string text, s)
  | Ascii.openBracket :: s =>
    match deeper with
    | none => .error ⟨.recursionLimit, s⟩
    | some value => do
      let (vs, s) ← array bound value s
      return (.array vs, s)
  | Ascii.openBrace :: s =>
    match deeper with
    | none => .error ⟨.recursionLimit, s⟩
    | some value => do
      let (ms, s) ← object bound value s
      return (.object ms, s)
  | Ascii.minus :: s => do
    let (x, s) ← Number.read true s
    return (.number x, s)
  | b :: s =>
    if Ascii.isDigit b then do
      let (x, s) ← Number.read false (b :: s)
      return (.number x, s)
    else .error ⟨.expectedValue, s⟩

/-- Reads one value in which brackets nest at most `depth` deep. -/
def value (bound : Nat) : Nat → ValueReader
  | 0 => valueWith bound none
  | depth + 1 => valueWith bound (some (value bound depth))

/-- How deep brackets may nest. -/
def maxDepth : Nat := 127

/-- Reads a text as one value with blanks around it. -/
def document (text : Bytes) : Except Fault Json := do
  let (v, s) ← value text.length maxDepth text
  match skipBlank s with
  | [] => .ok v
  | _ :: s => .error ⟨.trailingCharacters, s⟩

end Reader

/-- The value that a text holds. -/
def read (text : Bytes) : Except SyntaxError Json :=
  (Reader.document text).mapError (·.toError text)

end RemoteInput.Json
