import RemoteInput.Settings.Location
import RemoteInput.Settings.Schema
import RemoteInput.Text.Utf8
import RemoteInput.Toml.Reader

/-!
# Loading settings

A file at a path that the user gave has to be there.  The file at the default
path may be missing, and then every setting has its default, as it has when no
default path is known.  Any other failure is an error for both.
-/

namespace RemoteInput

/-- The files of the machine. -/
structure FileSystem where
  /-- The content of the file at a path. -/
  read : String → Except IoError Bytes

/-- Why a text holds no settings. -/
inductive SettingsTextError where
  /-- It is no document. -/
  | notToml
  /-- The document has a value of the wrong shape. -/
  | schema (error : SchemaError)
  deriving DecidableEq

/-- The wording of a text error. -/
def SettingsTextError.message : SettingsTextError → String
  | .notToml => "not a TOML document"
  | .schema e => e.message

/-- Why there are no settings or no configuration. -/
inductive ConfigError where
  /-- The environment names no directory for configuration. -/
  | noConfigDir
  /-- The file cannot be read. -/
  | io (path : String) (error : IoError)
  /-- The file holds no settings. -/
  | text (error : SettingsTextError)
  /-- The address is none. -/
  | invalidBindAddress (address : String)
  deriving DecidableEq

/-- The wording of a configuration error. -/
def ConfigError.message : ConfigError → String
  | .noConfigDir => "could not determine platform config directory"
  | .io path e => s!"I/O error accessing config at {path}: {e.message}"
  | .text e => s!"failed to parse config TOML: {e.message}"
  | .invalidBindAddress address => s!"invalid bind address {Quoted.write address}"

/-- The directory of the settings. -/
def Environment.configDir (env : Environment) : Except ConfigError String :=
  env.configDir?.elim (.error .noConfigDir) .ok

/-- The file of the settings. -/
def Environment.configFile (env : Environment) : Except ConfigError String :=
  env.configFile?.elim (.error .noConfigDir) .ok

/-- The text of a file. -/
def FileSystem.readText (fs : FileSystem) (path : String) : Except IoError (List Char) := do
  let bytes ← fs.read path
  match Utf8.decode bytes with
  | .ok text => .ok text
  | .error _ => .error .notUtf8

namespace Settings

/-- The settings that a text holds. -/
def ofText (text : List Char) : Except SettingsTextError Settings :=
  match Toml.parse? text with
  | none => .error .notToml
  | some document => (ofDocument document).mapError .schema

/-- The settings that the file at a path holds. -/
def read (fs : FileSystem) (path : String) : Except ConfigError Settings :=
  match fs.readText path with
  | .error e => .error (.io path e)
  | .ok text => (ofText text).mapError .text

/-- The settings of the file at the default path, or the defaults if there is none. -/
def readDefault (fs : FileSystem) (env : Environment) : Except ConfigError Settings :=
  match env.configFile? with
  | none => .ok {}
  | some path =>
    match read fs path with
    | .error (.io path e) => if e.kind = .notFound then .ok {} else .error (.io path e)
    | result => result

/-- The settings of the file at a given path, or else at the default one. -/
def load (fs : FileSystem) (env : Environment) : Option String → Except ConfigError Settings
  | some path => read fs path
  | none => readDefault fs env

/-- The configuration of settings. -/
def toHostConfig (s : Settings) : Except ConfigError HostConfig :=
  s.toHostConfig?.elim (.error (.invalidBindAddress s.bindAddress)) .ok

end Settings

end RemoteInput
