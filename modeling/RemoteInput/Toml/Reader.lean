import RemoteInput.Toml.Placement
import RemoteInput.Toml.Scalar

/-!
# Reading TOML

A document is a sequence of lines: a key with a value, a header, or nothing but
blanks and a comment.  An array may run over several lines, a table in braces may
not.  Brackets nest at most `maxDepth` deep, and a key has at most as many names.

A text is a document or it is not.  Nothing is said of why it is not.
-/

namespace RemoteInput.Toml.Reader

open Text (skipBlank skipLines finishLine? isBare)
open Scalar (expect)

/-- How deep brackets nest and how many names a key has, at most. -/
def maxDepth : Nat := 79

/-- A reader of values. -/
abbrev ValueReader := List Char → Option (Toml × List Char)

/-! ## Keys -/

/-- Reads one name of a key. -/
def name (bound : Nat) (s : List Char) : Option (String × List Char) :=
  match s with
  | '"' :: s => (Text.basic bound [] s).map fun (cs, s) => (String.ofList cs, s)
  | '\x27' :: s => (Text.literal s).map fun (cs, s) => (String.ofList cs, s)
  | s =>
    let cs := s.takeWhile isBare
    if cs.isEmpty then none else some (String.ofList cs, s.dropWhile isBare)

/-- Reads the names of a key, with points between them.  Gives them latest first. -/
def names (width : Nat) : Nat → List String → List Char → Option (List String × List Char)
  | 0, _, _ => none
  | bound + 1, seen, s => do
    let (n, s) ← name width (skipBlank s)
    match skipBlank s with
    | '.' :: s => names width bound (n :: seen) s
    | s => some (n :: seen, s)

/-- Reads a key.  Gives its path and its last name. -/
def key (bound : Nat) (s : List Char) : Option ((List String × String) × List Char) := do
  let (ns, s) ← names bound bound [] s
  match ns with
  | [] => none
  | last :: path => if path.length < maxDepth then some ((path.reverse, last), s) else none

/-- Reads a key and its value, up to the value's last character. -/
def assignment (bound : Nat) (value : ValueReader) (s : List Char) :
    Option ((List String × String) × Toml × List Char) := do
  let (k, s) ← key bound s
  let s ← expect '=' s
  let (v, s) ← value (skipBlank s)
  return (k, v, s)

/-! ## Brackets -/

/-- Reads an array after its first items, which are in `seen`, latest first. -/
def items (whole : Nat) (value : ValueReader) : Nat → List Toml → ValueReader
  | 0, _, _ => none
  | bound + 1, seen, s =>
    match skipLines whole s with
    | ']' :: s => some (.array seen.reverse, s)
    | ',' :: s =>
      match skipLines whole s with
      | ']' :: s => some (.array seen.reverse, s)
      | s => do
        let (v, s) ← value s
        items whole value bound (v :: seen) s
    | _ => none

/-- Reads an array after its opening bracket. -/
def array (bound : Nat) (value : ValueReader) : ValueReader := fun s =>
  match skipLines bound s with
  | ']' :: s => some (.array [], s)
  | s => do
    let (v, s) ← value s
    items bound value bound [v] s

/-- Reads the rest of a table in braces from its next key on. -/
def assignments (whole : Nat) (value : ValueReader) : Nat → Entries → ValueReader
  | 0, _, _ => none
  | bound + 1, entries, s => do
    let ((path, last), v, s) ← assignment whole value s
    let entries ← insert entries .braces path last v
    match skipBlank s with
    | '}' :: s => some (.table .braces entries, s)
    | ',' :: s => assignments whole value bound entries s
    | _ => none

/-- Reads a table in braces after its opening brace. -/
def braces (bound : Nat) (value : ValueReader) : ValueReader := fun s =>
  match skipBlank s with
  | '}' :: s => some (.table .braces [], s)
  | s => assignments bound value bound [] s

/-- Reads a value, given the reader of the values one level deeper if there may be any. -/
def valueWith (bound : Nat) (deeper : Option ValueReader) : ValueReader := fun s =>
  match s with
  | '[' :: s => deeper.bind fun value => array bound value s
  | '{' :: s => deeper.bind fun value => braces bound value s
  | s =>
    match Text.quoted bound s with
    | some (t, s) => some (.string t, s)
    | none => Scalar.read s

/-- Reads a value in which brackets nest at most `depth` deep. -/
def value (bound : Nat) : Nat → ValueReader
  | 0 => valueWith bound none
  | depth + 1 => valueWith bound (some (value bound depth))

/-! ## Lines -/

/-- Reads a header and what is left of its line. -/
def header (bound : Nat) (doc : Document) (s : List Char) : Option (Document × List Char) :=
  match s with
  | '[' :: '[' :: s => do
    let ((path, last), s) ← key bound s
    let s ← expect ']' s
    let s ← expect ']' s
    let s ← finishLine? s
    let doc ← doc.startElement path last
    return (doc, s)
  | '[' :: s => do
    let ((path, last), s) ← key bound s
    let s ← expect ']' s
    let s ← finishLine? s
    let doc ← doc.startTable path last
    return (doc, s)
  | _ => none

/-- Reads the lines of a document. -/
def documentLines (whole : Nat) : Nat → Document → List Char → Option Document
  | 0, _, _ => none
  | bound + 1, doc, s =>
    match skipBlank s with
    | [] => some doc
    | '[' :: s => do
      let (doc, s) ← header whole doc ('[' :: s)
      documentLines whole bound doc s
    | s =>
      match finishLine? s with
      | some s => documentLines whole bound doc s
      | none => do
        let ((path, last), v, s) ← assignment whole (value whole maxDepth) s
        let s ← finishLine? s
        let doc ← doc.insert path last v
        documentLines whole bound doc s

/-- The text without a byte order mark at its start. -/
def dropMark : List Char → List Char
  | '\uFEFF' :: s => s
  | s => s

end Reader

/-- Reads a text as a document. -/
def parse? (text : List Char) : Option Entries := do
  let doc ← Reader.documentLines (text.length + 1) (text.length + 1) {} (Reader.dropMark text)
  doc.close

end RemoteInput.Toml
