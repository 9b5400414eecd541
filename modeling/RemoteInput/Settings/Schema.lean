import RemoteInput.Decimal.Text
import RemoteInput.Settings.Basic
import RemoteInput.Text.Quoted
import RemoteInput.Toml.Value

/-!
# Settings in a document

A document may have a table `host` and a table `network`.  Each known key in
them sets one setting, and a setting whose key is missing has its default.  All
other keys are ignored.  The keys are read in the order of the document and the
first value of the wrong shape is the error.

A section may also be an array, which gives the values of its keys in their order
of declaration.  Values that are missing at its end have their defaults and
values past the last key are ignored.  A date counts as a table without known
keys.  The backend may be a table with one entry, whose name is the backend and
whose value is empty.
-/

namespace RemoteInput

/-! ## Errors -/

/-- What stands where something else was expected. -/
inductive Found where
  | string (text : String)
  | integer (value : Int)
  | float (value : Float)
  | boolean (value : Bool)
  | sequence
  | map
  deriving DecidableEq

/-- A floating point number in an error text. -/
def Found.floatText (x : Float) : String :=
  if x.isNaN then "NaN"
  else if x.isInf then (if x < 0 then "-inf" else "inf")
  else String.ofList (Decimal.writeFloat .positional x)

/-- The wording of what was found. -/
def Found.description : Found → String
  | .string text => s!"string {Quoted.write text}"
  | .integer value => s!"integer `{value}`"
  | .float value => s!"floating point `{floatText value}`"
  | .boolean value => s!"boolean `{value}`"
  | .sequence => "sequence"
  | .map => "map"

/-- What a value should have been. -/
inductive Shape where
  | string
  | port
  | size
  | seconds
  | hostSection
  | networkSection
  deriving DecidableEq

/-- The wording of a shape. -/
def Shape.description : Shape → String
  | .string => "a string"
  | .port => "u16"
  | .size => "usize"
  | .seconds => "u64"
  | .hostSection => "struct HostSection"
  | .networkSection => "struct NetworkSection"

/-- Why the entry that names a backend is not empty. -/
inductive NotEmpty where
  | array
  | table
  | scalar (kind : String)
  deriving DecidableEq

/-- Why a document holds no settings. -/
inductive SchemaError where
  | invalidType (found : Found) (expected : Shape)
  | invalidValue (value : Int) (expected : Shape)
  | unknownBackend (name : String)
  | backendNotNamed
  | backendTableEmpty
  | backendTableLong
  | backendEntry (value : NotEmpty)
  deriving DecidableEq

/-- The wording of a schema error. -/
def SchemaError.message : SchemaError → String
  | .invalidType found expected =>
    s!"invalid type: {found.description}, expected {expected.description}"
  | .invalidValue value expected =>
    s!"invalid value: {Found.description (.integer value)}, expected {expected.description}"
  | .unknownBackend name =>
    s!"unknown variant `{name}`, expected one of `auto`, `log`, `macos`"
  | .backendNotNamed => "wanted string or table"
  | .backendTableEmpty => "wanted exactly 1 element, found 0 elements"
  | .backendTableLong => "wanted exactly 1 element, more than 1 element"
  | .backendEntry .array => "expected empty array"
  | .backendEntry .table => "expected empty table"
  | .backendEntry (.scalar kind) => s!"expected table, found {kind}"

/-! ## Values -/

namespace Schema

/-- What a value is found to be. -/
def found : Toml → Found
  | .string text => .string text
  | .integer value => .integer value
  | .float value => .float value
  | .boolean value => .boolean value
  | .array _ | .tables _ => .sequence
  | .datetime | .table .. => .map

/-- Reads a text. -/
def string : Toml → Except SchemaError String
  | .string text => .ok text
  | v => .error (.invalidType (found v) .string)

/-- Reads a number below a bound. -/
def natural (bound : Nat) (shape : Shape) : Toml → Except SchemaError Nat
  | .integer value =>
    if 0 ≤ value && value < bound then .ok value.toNat else .error (.invalidValue value shape)
  | v => .error (.invalidType (found v) shape)

/-- Reads the name of a backend. -/
def backendName (name : String) : Except SchemaError BackendKind :=
  match BackendKind.ofName? name with
  | some kind => .ok kind
  | none => .error (.unknownBackend name)

/-- Why a value is not empty, if it is not. -/
def notEmpty? : Toml → Option NotEmpty
  | .tables elements => if elements.isEmpty then none else some .array
  | .array items => if items.isEmpty then none else some .table
  | .table _ entries => if entries.isEmpty then none else some .table
  | .string _ => some (.scalar "string")
  | .integer _ => some (.scalar "integer")
  | .float _ => some (.scalar "float")
  | .boolean _ => some (.scalar "boolean")
  | .datetime => some (.scalar "datetime")

/-- Reads a backend. -/
def backend : Toml → Except SchemaError BackendKind
  | .string name => backendName name
  | .table _ [] => .error .backendTableEmpty
  | .table _ [(name, value)] => do
    let kind ← backendName name
    match notEmpty? value with
    | none => .ok kind
    | some reason => .error (.backendEntry reason)
  | .table .. => .error .backendTableLong
  | _ => .error .backendNotNamed

/-! ## Sections -/

/-- Sets one setting. -/
abbrev Setter := Settings → Toml → Except SchemaError Settings

/-- Sets the log level. -/
def setLogLevel : Setter := fun s v => do return { s with logLevel := ← string v }

/-- Sets the backend. -/
def setBackend : Setter := fun s v => do return { s with backend := ← backend v }

/-- Sets the address. -/
def setBindAddress : Setter := fun s v => do return { s with bindAddress := ← string v }

/-- Sets the port. -/
def setPort : Setter := fun s v => do
  return { s with port := UInt16.ofNat (← natural (2 ^ 16) .port v) }

/-- Sets the limit of a line. -/
def setMaxLineBytes : Setter := fun s v => do
  return { s with maxLineBytes := UInt64.ofNat (← natural (2 ^ 64) .size v) }

/-- Sets the timeout. -/
def setReadTimeout : Setter := fun s v => do
  return { s with readTimeoutSecs := UInt64.ofNat (← natural (2 ^ 64) .seconds v) }

/-- A section: its keys in the order of declaration, and its shape. -/
structure Section where
  /-- The keys. -/
  keys : List (String × Setter)
  /-- The shape. -/
  shape : Shape

/-- The section on how the host behaves. -/
def hostSection : Section where
  keys := [("log_level", setLogLevel), ("backend", setBackend)]
  shape := .hostSection

/-- The section on the network. -/
def networkSection : Section where
  keys :=
    [ ("bind_address", setBindAddress), ("port", setPort), ("max_line_bytes", setMaxLineBytes),
      ("read_timeout_secs", setReadTimeout) ]
  shape := .networkSection

/-- Reads the entries of a section in order. -/
def readEntries (sec : Section) : Settings → Toml.Entries → Except SchemaError Settings
  | s, [] => .ok s
  | s, (name, v) :: entries =>
    match List.lookup name sec.keys with
    | none => readEntries sec s entries
    | some set => do readEntries sec (← set s v) entries

/-- Reads the values of a section that is an array. -/
def readItems : List (String × Setter) → Settings → List Toml → Except SchemaError Settings
  | (_, set) :: keys, s, v :: items => do readItems keys (← set s v) items
  | _, s, _ => .ok s

/-- Reads a section. -/
def readSection (sec : Section) (s : Settings) : Toml → Except SchemaError Settings
  | .table _ entries => readEntries sec s entries
  | .datetime => .ok s
  | .array items => readItems sec.keys s items
  | .tables elements => readItems sec.keys s (elements.reverse.map (.table .header))
  | v => .error (.invalidType (found v) sec.shape)

/-- The section of a name. -/
def section? : String → Option Section
  | "host" => some hostSection
  | "network" => some networkSection
  | _ => none

/-- Reads the entries of a document in order. -/
def readDocument : Settings → Toml.Entries → Except SchemaError Settings
  | s, [] => .ok s
  | s, (name, v) :: entries =>
    match section? name with
    | none => readDocument s entries
    | some sec => do readDocument (← readSection sec s v) entries

end Schema

/-- The settings that a document holds. -/
def Settings.ofDocument (document : Toml.Entries) : Except SchemaError Settings :=
  Schema.readDocument {} document

end RemoteInput
