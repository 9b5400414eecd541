import RemoteInput.Text.Ascii

/-!
# Faults of a JSON text

A reader that fails says why and where.  The cause is one of a closed list, and
its wording is in one function.  The place is held as the bytes that were not
yet read, and turned into a line and a column only when the whole text is at
hand.

Two places matter.  A fault that is noticed after a byte was taken in stands
just after that byte.  A fault that is noticed by looking at the next byte
counts that byte too, so its rest is one byte shorter, unless the text is over.
-/

namespace RemoteInput.Json

/-- Why a text is no JSON value. -/
inductive Cause where
  | endInValue
  | endInList
  | endInObject
  | endInString
  | expectedValue
  | expectedIdent
  | expectedColon
  | expectedListCommaOrEnd
  | expectedObjectCommaOrEnd
  | trailingComma
  | trailingCharacters
  | keyNotString
  | invalidNumber
  | numberOutOfRange
  | controlCharacter
  | invalidEscape
  | loneSurrogate
  | unexpectedEndOfEscape
  | invalidCodePoint
  | recursionLimit
  deriving DecidableEq

/-- The wording of a cause. -/
def Cause.message : Cause → String
  | .endInValue => "EOF while parsing a value"
  | .endInList => "EOF while parsing a list"
  | .endInObject => "EOF while parsing an object"
  | .endInString => "EOF while parsing a string"
  | .expectedValue => "expected value"
  | .expectedIdent => "expected ident"
  | .expectedColon => "expected `:`"
  | .expectedListCommaOrEnd => "expected `,` or `]`"
  | .expectedObjectCommaOrEnd => "expected `,` or `\x7d`"
  | .trailingComma => "trailing comma"
  | .trailingCharacters => "trailing characters"
  | .keyNotString => "key must be a string"
  | .invalidNumber => "invalid number"
  | .numberOutOfRange => "number out of range"
  | .controlCharacter => "control character (\\u0000-\\u001F) found while parsing a string"
  | .invalidEscape => "invalid escape"
  | .loneSurrogate => "lone leading surrogate in hex escape"
  | .unexpectedEndOfEscape => "unexpected end of hex escape"
  | .invalidCodePoint => "invalid unicode code point"
  | .recursionLimit => "recursion limit exceeded"

/-- A cause with the bytes that follow the place it stands at. -/
structure Fault where
  /-- Why. -/
  cause : Cause
  /-- The bytes that follow the place. -/
  rest : Bytes
  deriving DecidableEq

/-! ## Places -/

/-- A place in a text. -/
structure Position where
  /-- One more than the line feeds before the place. -/
  line : Nat
  /-- The bytes between the last line feed and the place. -/
  column : Nat
  deriving DecidableEq

/-- The place just after some bytes. -/
def Position.after (bytes : Bytes) : Position where
  line := bytes.count Ascii.newline + 1
  column := (bytes.reverse.takeWhile (· != Ascii.newline)).length

/-- The place of a fault in the text it was found in. -/
def Fault.position (fault : Fault) (text : Bytes) : Position :=
  .after (text.take (text.length - fault.rest.length))

/-! ## Errors -/

/-- A fault with its place in the text. -/
structure SyntaxError where
  /-- Why. -/
  cause : Cause
  /-- Where. -/
  position : Position
  deriving DecidableEq

/-- The error of a fault found in a text. -/
def Fault.toError (fault : Fault) (text : Bytes) : SyntaxError := ⟨fault.cause, fault.position text⟩

/-- The wording of an error. -/
def SyntaxError.message (e : SyntaxError) : String :=
  s!"{e.cause.message} at line {e.position.line} column {e.position.column}"

/-! ## Tests -/

example : (⟨.expectedValue, [0x7D]⟩ : Fault).position [0x5B, 0x0A, 0x7D, 0x7D] = ⟨2, 1⟩ := by decide
example : (⟨.endInValue, []⟩ : Fault).position [] = ⟨1, 0⟩ := by decide

end RemoteInput.Json
