import RemoteInput.Address
import RemoteInput.Connection.Handler
import RemoteInput.Injection.Kind

/-!
# Settings of a host

The settings are what a user can write down: every value as text or number, with
a default for each.  What a running host works with is a `HostConfig`, in which
the address is an address and a timeout of zero seconds is no timeout.  Only the
address can keep settings from becoming a configuration.
-/

namespace RemoteInput

/-- The settings of a host. -/
structure Settings where
  /-- How much is logged. -/
  logLevel : String := "info"
  /-- The backend. -/
  backend : BackendKind := .auto
  /-- The address to listen on. -/
  bindAddress : String := "0.0.0.0"
  /-- The port to listen on. -/
  port : UInt16 := 8765
  /-- The most bytes of a line. -/
  maxLineBytes : UInt64 := 65536
  /-- The seconds of silence after which a connection ends, or zero. -/
  readTimeoutSecs : UInt64 := 0
  deriving DecidableEq

/-- What a running host works with. -/
structure HostConfig where
  /-- Where it listens. -/
  bindAddress : SocketAddress
  /-- What bounds its connections. -/
  limits : Limits
  deriving DecidableEq

/-- The configuration of the default settings. -/
def HostConfig.default : HostConfig where
  bindAddress := ⟨.v4 ⟨0, 0, 0, 0⟩, 8765⟩
  limits := ⟨65536, none⟩

/-- The timeout of a number of seconds.  Zero means none. -/
def timeoutOf (secs : UInt64) : Option Duration :=
  if secs = 0 then none else some (.ofSeconds secs.toNat)

/-- The configuration of settings, if their address is one. -/
def Settings.toHostConfig? (s : Settings) : Option HostConfig :=
  (IpAddress.parse? s.bindAddress).map fun ip =>
    { bindAddress := ⟨ip, s.port⟩
      limits := ⟨s.maxLineBytes, timeoutOf s.readTimeoutSecs⟩ }

/-! ## Tests -/

example : ({} : Settings).toHostConfig? = some .default := by decide +kernel

end RemoteInput
