import RemoteInput.Connection.Stream
import RemoteInput.Settings.Basic

/-!
# Listening

A listener accepts one connection after another, as if each were the first.  Its
connections share the backend and nothing else.  Nothing that happens on a
connection ends the listener, and neither does a peer that cannot be accepted.
Each wait for a peer is cut off after a while, so that the listener looks at the
flag that keeps it running.  It stops when the flag is cleared.

A peer sends chunks and then either closes its side or stays silent.  A silent
peer is given up after the read timeout.  Without a timeout its connection stays
open.
-/

namespace RemoteInput.Listener

variable {σ : Type}

/-! ## Records -/

/-- A peer connected. -/
def connectedRecord : Log.Record := ⟨.info, "connected", []⟩

/-- The counts of a connection as fields. -/
def tallyFields (tally : Tally) : List (String × Log.Value) :=
  [ ("processed", .count tally.processed), ("rejected", .count tally.rejected),
    ("skipped", .count tally.skipped) ]

/-- A connection ended. -/
def disconnectedRecord (summary : Summary) : Log.Record :=
  match summary.ending with
  | .peerClosed => ⟨.info, "disconnected", tallyFields summary.tally⟩
  | .failed e => ⟨.warn, s!"disconnected: {e.message}", tallyFields summary.tally⟩

/-- The listener is about to accept connections. -/
def listeningRecord (address : String) : Log.Record := ⟨.info, s!"host listening on {address}", []⟩

/-- A peer was not accepted. -/
def acceptErrorRecord (error : IoError) : Log.Record :=
  ⟨.error, s!"accept error: {error.message}", []⟩

/-- The listener was told to stop. -/
def stoppedRecord : Log.Record := ⟨.info, "shutdown flag set; stopping accept loop", []⟩

/-! ## Connections -/

/-- A peer of the listener. -/
structure Peer where
  /-- What it sends. -/
  chunks : List Bytes
  /-- Whether it then stays silent. -/
  silent : Bool := false

/-- What the listener works with. -/
structure Setup (σ : Type) where
  /-- The backend. -/
  backend : Injection.Backend σ
  /-- What bounds a connection. -/
  limits : Limits
  /-- The time at which the line of a number is received, for the connection of a number. -/
  clock : Nat → Nat → Float

/-- What a connection brought about. -/
structure Served where
  /-- The inputs that the backend was asked to inject. -/
  calls : List Input
  /-- The records. -/
  log : List Log.Record
  /-- What was done to the stream. -/
  acts : List Connection.Act

/-- The bytes that were sent to the peer. -/
def Served.reply (served : Served) : Bytes := served.acts.flatMap Connection.Act.sent

/-- What the stream of a peer brings.  Its shutdown does not fail. -/
def Peer.arrivals (limits : Limits) (peer : Peer) : List Connection.Arrival :=
  peer.chunks.map .data ++
    match peer.silent, limits.readTimeout with
    | false, _ => [.ended .closed, .shutDown (.ok ())]
    | true, some limit => [.ended (.failed (.readTimeout limit)), .shutDown (.ok ())]
    | true, none => []

/-- Serves one peer. -/
def serveOne (setup : Setup σ) (number : Nat) (backend : σ) (peer : Peer) : σ × Served :=
  let ctx : Connection.Context σ :=
    ⟨setup.backend, setup.limits.maxLineBytes, setup.clock number⟩
  let c := Connection.Live.after ctx backend (peer.arrivals setup.limits)
  (c.backend,
    { calls := c.trace.calls
      log := connectedRecord :: c.trace.log ++ (c.phase.summary?.map disconnectedRecord).toList
      acts := c.acts })

/-! ## The accept loop -/

/-- What a turn of the accept loop comes to. -/
inductive Turn where
  /-- A peer connects. -/
  | connected (peer : Peer)
  /-- No peer connects before the wait is cut off. -/
  | idle
  /-- A peer cannot be accepted. -/
  | refused (error : IoError)
  /-- The running flag is found cleared, before any wait. -/
  | stopped

/-- Takes turns of the accept loop, the next peer under a number.  Gives what each peer brought
about and what the loop itself reported. -/
def acceptFrom (setup : Setup σ) (number : Nat) (backend : σ) :
    List Turn → σ × List Served × List Log.Record
  | [] => (backend, [], [])
  | .connected peer :: turns =>
    let (backend, first) := serveOne setup number backend peer
    let (backend, rest, log) := acceptFrom setup (number + 1) backend turns
    (backend, first :: rest, log)
  | .idle :: turns => acceptFrom setup number backend turns
  | .refused e :: turns =>
    let (backend, served, log) := acceptFrom setup number backend turns
    (backend, served, acceptErrorRecord e :: log)
  | .stopped :: _ => (backend, [], [stoppedRecord])

/-- Takes turns of the accept loop from its start on. -/
def accept (setup : Setup σ) (backend : σ) (turns : List Turn) :
    σ × List Served × List Log.Record := acceptFrom setup 0 backend turns

/-- Serves peers one after another, after which the running flag is cleared. -/
def serve (setup : Setup σ) (backend : σ) (peers : List Peer) :
    σ × List Served × List Log.Record :=
  accept setup backend (peers.map .connected ++ [.stopped])

/-! ## Starting -/

/-- The addresses of the machine. -/
structure Network where
  /-- Takes hold of an address.  Gives the address that is held, whose port is chosen by the machine
  when the port asked for is zero. -/
  bind : SocketAddress → Except IoError SocketAddress

/-- Why a listener was not started. -/
structure BindError where
  /-- The address. -/
  address : SocketAddress
  /-- What the machine says. -/
  error : IoError
  deriving DecidableEq

/-- The wording of a bind error. -/
def BindError.message (e : BindError) : String :=
  s!"failed to bind listener on {e.address.text}: {e.error.message}"

/-- Takes hold of the address of a configuration. -/
def bind (network : Network) (config : HostConfig) : Except BindError SocketAddress :=
  (network.bind config.bindAddress).mapError (⟨config.bindAddress, ·⟩)

/-- What came of a listener that was started. -/
structure Outcome (σ : Type) where
  /-- The state of the backend. -/
  backend : σ
  /-- The records before the first connection. -/
  opening : List Log.Record
  /-- What each connection brought about. -/
  served : List Served
  /-- The records after the last connection. -/
  closing : List Log.Record

/-- Listens on the address of a configuration and serves peers until the running flag is
cleared. -/
def run (network : Network) (config : HostConfig) (setup : Setup σ) (backend : σ)
    (peers : List Peer) : Except BindError (Outcome σ) := do
  let address ← bind network config
  let (backend, served, closing) := serve setup backend peers
  return { backend, opening := [listeningRecord address.text], served, closing }

end RemoteInput.Listener
