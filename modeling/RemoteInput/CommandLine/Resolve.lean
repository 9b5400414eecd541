import RemoteInput.CommandLine.Options
import RemoteInput.Settings.Load

/-!
# From the command line to a configuration

An option given as an argument wins over its variable, and both win over the file
of the settings.  What none of them says has its default.  The file is loaded
first, and the address is looked at last, when everything was put together.
-/

namespace RemoteInput

/-- Takes the options that were not given from the environment. -/
def Overrides.addVariables (env : Environment) :
    Overrides → List OptionName → Except UsageError Overrides
  | o, [] => .ok o
  | o, option :: options =>
    if o.has option then o.addVariables env options
    else
      match option.envName?.bind env.get? with
      | none => o.addVariables env options
      | some text => do (← o.set option text).addVariables env options

/-- The options that arguments and an environment give. -/
def Overrides.parse (env : Environment) (arguments : List String) :
    Except UsageError Overrides := do
  let given ← CommandLine.readArguments {} none arguments
  given.addVariables env OptionName.all

/-- Puts options over settings. -/
def Overrides.apply (o : Overrides) (s : Settings) : Settings where
  logLevel := s.logLevel
  backend := o.backend.getD s.backend
  bindAddress := o.bindAddress.getD s.bindAddress
  port := o.port.getD s.port
  maxLineBytes := o.maxLineBytes.getD s.maxLineBytes
  readTimeoutSecs := o.readTimeoutSecs.getD s.readTimeoutSecs

/-- Why options do not lead to a configuration. -/
inductive ResolveError where
  /-- The settings cannot be loaded. -/
  | load (cause : ConfigError)
  /-- The settings are no configuration. -/
  | invalid (cause : ConfigError)
  deriving DecidableEq

/-- The wording of a resolve error. -/
def ResolveError.message : ResolveError → String
  | .load _ => "failed to load config"
  | .invalid _ => "invalid configuration"

/-- The cause of a resolve error. -/
def ResolveError.cause : ResolveError → ConfigError
  | .load cause | .invalid cause => cause

/-- The settings and the configuration that options lead to. -/
def Overrides.resolve (fs : FileSystem) (env : Environment) (o : Overrides) :
    Except ResolveError (Settings × HostConfig) := do
  let file ← (Settings.load fs env o.config).mapError .load
  let settings := o.apply file
  let config ← settings.toHostConfig.mapError .invalid
  return (settings, config)

end RemoteInput
