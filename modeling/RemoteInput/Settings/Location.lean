/-!
# Where the settings are kept

Without a path given by the user the settings are read from a file in the user's
directory for configuration.  The environment says where that directory is.  A
variable that is set to nothing counts as set.
-/

namespace RemoteInput

/-- The variables of the environment. -/
structure Environment where
  /-- The value of a variable, if it is set. -/
  get? : String → Option String

/-- The path of a name below a path. -/
def joinPath (base name : String) : String :=
  if base.isEmpty then name
  else if base.toList.getLast? = some '/' then base ++ name
  else base ++ "/" ++ name

namespace Environment

/-- The user's directory for configuration. -/
def userConfigDir? (env : Environment) : Option String :=
  match env.get? "XDG_CONFIG_HOME" with
  | some dir => some dir
  | none => (env.get? "HOME").map fun home => joinPath home ".config"

/-- The directory of the settings. -/
def configDir? (env : Environment) : Option String :=
  env.userConfigDir?.map fun dir => joinPath dir "iobus"

/-- The file of the settings. -/
def configFile? (env : Environment) : Option String :=
  env.configDir?.map fun dir => joinPath dir "host.toml"

end Environment

/-! ## Tests -/

example : joinPath "/x/" "y" = "/x/y" ∧ joinPath "" "y" = "y" ∧ joinPath "x" "y" = "x/y" := by
  decide +kernel

end RemoteInput
