import RemoteInput.Settings.Basic
import RemoteInput.Text.Digits

/-!
# Command line options

Each option overrides one setting, or names the file of the settings.  Its value
is the next argument, or follows an equals sign in the same one.  An option is
given at most once.

The value of an option is looked at when the next option begins or the arguments
are over.  So an argument that belongs nowhere is found before a value that is
none.  Two options have no value and end the reading: the one for help and the
one for the version.

After the arguments the environment is asked for the options that were not given.
A variable is a value even when it is empty.
-/

namespace RemoteInput

/-! ## Options -/

/-- The options with a value, in the order of declaration. -/
inductive OptionName where
  | config
  | bind
  | port
  | maxLineBytes
  | readTimeout
  | backend
  deriving DecidableEq

namespace OptionName

/-- Every option with a value. -/
def all : List OptionName := [.config, .bind, .port, .maxLineBytes, .readTimeout, .backend]

/-- The name of an option behind its two dashes. -/
def long : OptionName → String
  | .config => "config"
  | .bind => "bind"
  | .port => "port"
  | .maxLineBytes => "max-line-bytes"
  | .readTimeout => "read-timeout-secs"
  | .backend => "backend"

/-- The variable that stands in for an option. -/
def envName? : OptionName → Option String
  | .config => some "IOBUS_CONFIG"
  | .bind => some "IOBUS_BIND"
  | .port => some "IOBUS_PORT"
  | .maxLineBytes => none
  | .readTimeout => none
  | .backend => some "IOBUS_BACKEND"

/-- The option of a name. -/
def ofLong? (name : String) : Option OptionName := all.find? fun option => option.long == name

end OptionName

/-! ## Errors -/

/-- Why the arguments are not taken as options. -/
inductive UsageError where
  /-- Help is asked for. -/
  | help
  /-- The version is asked for. -/
  | version
  /-- An argument belongs nowhere. -/
  | unknownArgument (argument : String)
  /-- An option has no value. -/
  | missingValue (option : OptionName)
  /-- The value is none that the option can have. -/
  | invalidValue (option : OptionName) (text : String)
  /-- The value is not a number in range. -/
  | notANumber (option : OptionName) (text : String)
  /-- An option is given twice. -/
  | repeated (option : OptionName)
  /-- An option that has no value is given one. -/
  | unexpectedValue (name : String)
  deriving DecidableEq

/-- Whether the user asked for what is printed. -/
def UsageError.isAnswer : UsageError → Bool
  | .help | .version => true
  | _ => false

/-- The exit code of the program. -/
def UsageError.exitCode (e : UsageError) : Nat := if e.isAnswer then 0 else 2

/-- Whether the text goes to the error output. -/
def UsageError.toStderr (e : UsageError) : Bool := !e.isAnswer

/-- The name of the program and its version, on a line. -/
def versionLine : String := "iobus-host 0.1.0\n"

/-! ## Values -/

/-- The options that are given. -/
structure Overrides where
  /-- The file of the settings. -/
  config : Option String := none
  /-- The address to listen on. -/
  bindAddress : Option String := none
  /-- The port to listen on. -/
  port : Option UInt16 := none
  /-- The most bytes of a line. -/
  maxLineBytes : Option UInt64 := none
  /-- The seconds of silence after which a connection ends, or zero. -/
  readTimeoutSecs : Option UInt64 := none
  /-- The backend. -/
  backend : Option BackendKind := none
  deriving DecidableEq

namespace CommandLine

/-- A number below a bound, without sign or with a plus sign. -/
def natural? (bound : Nat) (text : List Char) : Option Nat :=
  match text with
  | '+' :: ds => Digits.decimalBelow? bound ds
  | ds => Digits.decimalBelow? bound ds

/-- A port.  Zero may have either sign. -/
def port? (text : String) : Option UInt16 :=
  match text.toList with
  | '-' :: ds => (Digits.decimalBelow? 1 ds).map UInt16.ofNat
  | cs => (natural? (2 ^ 16) cs).map UInt16.ofNat

/-- A number below `2^64`. -/
def word? (text : String) : Option UInt64 := (natural? (2 ^ 64) text.toList).map UInt64.ofNat

end CommandLine

namespace Overrides

/-- Whether an option is given. -/
def has (o : Overrides) : OptionName → Bool
  | .config => o.config.isSome
  | .bind => o.bindAddress.isSome
  | .port => o.port.isSome
  | .maxLineBytes => o.maxLineBytes.isSome
  | .readTimeout => o.readTimeoutSecs.isSome
  | .backend => o.backend.isSome

/-- Sets an option to the value that a text stands for. -/
def set (o : Overrides) (option : OptionName) (text : String) : Except UsageError Overrides :=
  match option with
  | .config =>
    if text.isEmpty then .error (.invalidValue option text)
    else .ok { o with config := some text }
  | .bind => .ok { o with bindAddress := some text }
  | .port =>
    match CommandLine.port? text with
    | some n => .ok { o with port := some n }
    | none => .error (.notANumber option text)
  | .maxLineBytes =>
    match CommandLine.word? text with
    | some n => .ok { o with maxLineBytes := some n }
    | none => .error (.notANumber option text)
  | .readTimeout =>
    match CommandLine.word? text with
    | some n => .ok { o with readTimeoutSecs := some n }
    | none => .error (.notANumber option text)
  | .backend =>
    match BackendKind.ofName? text with
    | some kind => .ok { o with backend := some kind }
    | none => .error (.invalidValue option text)

/-- Gives an option that was not given before. -/
def give (o : Overrides) (option : OptionName) (text : String) : Except UsageError Overrides :=
  if o.has option then .error (.repeated option) else o.set option text

end Overrides

/-! ## Arguments -/

namespace CommandLine

/-- An argument by its form. -/
inductive Argument where
  /-- Two dashes: no option follows. -/
  | separator
  /-- Two dashes and a name, and what follows an equals sign. -/
  | long (name : String) (value : Option String)
  /-- One dash and a letter, and what follows it. -/
  | short (letter : Char)
  /-- Anything else, such as a value. -/
  | plain
  deriving DecidableEq

/-- The form of an argument. -/
def Argument.ofText (text : String) : Argument :=
  match text.toList with
  | ['-', '-'] => .separator
  | '-' :: '-' :: cs =>
    let name := String.ofList (cs.takeWhile (· ≠ '='))
    match cs.dropWhile (· ≠ '=') with
    | [] => .long name none
    | _ :: value => .long name (some (String.ofList value))
  | '-' :: c :: _ => .short c
  | _ => .plain

/-- An option whose value was not looked at yet. -/
structure Pending where
  /-- The option. -/
  option : OptionName
  /-- The text of its value, once it was read. -/
  text : Option String := none

/-- Takes the value of a pending option. -/
def flush (given : Overrides) : Option Pending → Except UsageError Overrides
  | none => .ok given
  | some ⟨option, none⟩ => .error (.missingValue option)
  | some ⟨option, some text⟩ => given.give option text

/-- Reads arguments after some were read. -/
def readArguments (given : Overrides) (pending : Option Pending) :
    List String → Except UsageError Overrides
  | [] => flush given pending
  | argument :: rest =>
    match Argument.ofText argument with
    | .separator =>
      match rest with
      | [] => flush given pending
      | next :: _ => .error (.unknownArgument next)
    | .long name value =>
      match OptionName.ofLong? name, value with
      | some option, none => do
        let given ← flush given pending
        readArguments given (some { option }) rest
      | some option, some text => do
        let given ← flush given pending
        readArguments (← given.give option text) none rest
      | none, value =>
        if name = "help" || name = "version" then
          match value with
          | some _ => .error (.unexpectedValue name)
          | none => do
            let _ ← flush given pending
            .error (if name = "help" then .help else .version)
        else .error (.unknownArgument argument)
    | .short letter =>
      if letter = 'h' || letter = 'V' then do
        let _ ← flush given pending
        .error (if letter = 'h' then .help else .version)
      else .error (.unknownArgument argument)
    | .plain =>
      match pending with
      | some ⟨option, none⟩ => readArguments given (some ⟨option, some argument⟩) rest
      | _ => .error (.unknownArgument argument)

end CommandLine

end RemoteInput
