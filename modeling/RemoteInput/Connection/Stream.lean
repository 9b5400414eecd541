import RemoteInput.Connection.Handler

/-!
# A connection on its stream

A stream brings bytes until it ends, and after that it brings what came of its
shutdown.  A connection takes these in one by one.  There are two things that it
can do to the stream: it can send bytes to the peer, and it can shut the stream
down.  What it does is kept beside the trace, so the acts tell what a peer gets to
see of it.

`Live` is a connection at any point of this.  What cannot arrive any more, such as
bytes after the end of the stream, is not looked at.
-/

namespace RemoteInput.Connection

/-- What a connection can do to its stream. -/
inductive Act where
  /-- It sends bytes to the peer. -/
  | send (bytes : Bytes)
  /-- It shuts the stream down. -/
  | shutdown
  deriving DecidableEq

/-- The bytes that an act sends to the peer. -/
def Act.sent : Act → Bytes
  | .send bytes => bytes
  | .shutdown => []

/-- What a stream brings. -/
inductive Arrival where
  /-- Bytes from the peer. -/
  | data (chunk : Bytes)
  /-- Its end. -/
  | ended (ending : StreamEnd)
  /-- What came of its shutdown. -/
  | shutDown (result : Except IoError Unit)

/-- How far a connection has come with its stream. -/
inductive Phase where
  /-- It waits for bytes. -/
  | reading (state : State)
  /-- The stream has ended, and its shutdown is under way. -/
  | leaving (summary : Summary)
  /-- It is over. -/
  | finished (summary : Summary)
  deriving DecidableEq

/-- The summary of a connection that is over. -/
def Phase.summary? : Phase → Option Summary
  | .finished summary => some summary
  | _ => none

/-- A connection on its stream. -/
structure Live (σ : Type) where
  /-- The state of the backend. -/
  backend : σ
  /-- How far it has come. -/
  phase : Phase := .reading {}
  /-- What it did to the backend and reported. -/
  trace : Trace := {}
  /-- What it did to the stream. -/
  acts : List Act := []

variable {σ : Type}

/-- Takes in what the stream brings next. -/
def Live.next (ctx : Context σ) (c : Live σ) (arrival : Arrival) : Live σ :=
  match c.phase, arrival with
  | .reading state, .data chunk =>
    let p := receive ctx c.backend state chunk
    { c with backend := p.backend, phase := .reading p.state, trace := c.trace ++ p.trace }
  | .reading state, .ended .closed =>
    let p := close ctx c.backend state
    { backend := p.backend
      phase := .leaving ⟨p.state.tally, .peerClosed⟩
      trace := c.trace ++ p.trace
      acts := c.acts ++ [.shutdown] }
  | .reading state, .ended (.failed e) =>
    { c with phase := .leaving ⟨state.tally, .failed e⟩, acts := c.acts ++ [.shutdown] }
  | .leaving summary, .shutDown result =>
    { c with phase := .finished summary, trace := c.trace ++ teardown result }
  | _, _ => c

/-- A connection after everything that its stream has brought so far. -/
def Live.after (ctx : Context σ) (backend : σ) (arrivals : List Arrival) : Live σ :=
  arrivals.foldl (Live.next ctx) { backend }

end RemoteInput.Connection
