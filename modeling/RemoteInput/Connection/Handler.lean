import RemoteInput.Connection.Framing
import RemoteInput.Duration
import RemoteInput.Event.Decode
import RemoteInput.Injection.Backend
import RemoteInput.IoError

/-!
# Handling a connection

A connection is read line by line.  A blank line is skipped.  Any other line is
decoded and its input handed to the backend.  A line that is too long, that does
not decode or that the backend refuses is rejected, and the next line is read as
if nothing had happened.

Only the end of the stream, an error of the stream or silence for longer than
the read timeout ends a connection.  A line that was begun and not ended is
handled when the peer closed the stream.  After an error or a timeout it is not.
However a connection ends, its stream is shut down once.

What a connection does to the backend and what it reports is a `Trace`.  The
time at which a line is received is asked of a clock, a function of the line's
number.
-/

namespace RemoteInput

/-! ## Limits and endings -/

/-- What bounds a connection. -/
structure Limits where
  /-- The most bytes of a line, without its end. -/
  maxLineBytes : UInt64
  /-- The longest silence, if there is one. -/
  readTimeout : Option Duration
  deriving DecidableEq

/-- Why a connection failed. -/
inductive ConnectionError where
  | io (error : IoError)
  | readTimeout (limit : Duration)
  deriving DecidableEq

/-- The wording of a connection error. -/
def ConnectionError.message : ConnectionError → String
  | .io e => s!"I/O error: {e.message}"
  | .readTimeout limit => s!"no data received for {limit.text}"

/-- How a connection ended. -/
inductive ConnectionEnd where
  /-- The peer closed the stream. -/
  | peerClosed
  /-- The stream failed or fell silent. -/
  | failed (error : ConnectionError)
  deriving DecidableEq

/-- Why a line was rejected. -/
inductive Rejection where
  | malformed (error : MessageError)
  | refused (error : InjectionError)
  | tooLong (limit : UInt64)
  deriving DecidableEq

/-- The wording of a rejection. -/
def Rejection.message : Rejection → String
  | .malformed e => e.message
  | .refused e => s!"injection failed: {e.message}"
  | .tooLong limit => s!"line exceeds {limit} bytes"

/-! ## What a connection does -/

/-- How many lines came to what. -/
structure Tally where
  /-- Lines whose input was injected. -/
  processed : Nat := 0
  /-- Lines that were rejected. -/
  rejected : Nat := 0
  /-- Blank lines. -/
  skipped : Nat := 0
  deriving DecidableEq

/-- What a connection has to say when it is over. -/
structure Summary where
  /-- Its lines. -/
  tally : Tally
  /-- How it ended. -/
  ending : ConnectionEnd
  deriving DecidableEq

/-- What was done to the backend and what was reported, in order. -/
@[ext]
structure Trace where
  /-- The inputs that the backend was asked to inject. -/
  calls : List Input := []
  /-- The records. -/
  log : List Log.Record := []

instance : Append Trace := ⟨fun a b => ⟨a.calls ++ b.calls, a.log ++ b.log⟩⟩

@[simp] theorem Trace.calls_append (a b : Trace) : (a ++ b).calls = a.calls ++ b.calls := rfl

@[simp] theorem Trace.log_append (a b : Trace) : (a ++ b).log = a.log ++ b.log := rfl

@[simp] theorem Trace.empty_append (t : Trace) : ({} : Trace) ++ t = t := by
  ext1 <;> simp

@[simp] theorem Trace.append_empty (t : Trace) : t ++ ({} : Trace) = t := by
  ext1 <;> simp

theorem Trace.append_assoc (a b c : Trace) : a ++ b ++ c = a ++ (b ++ c) := by
  ext1 <;> simp

namespace Connection

/-! ## Records -/

/-- The time of receipt stood in for a timestamp. -/
def defaultedRecord : Log.Record := ⟨.trace, "timestamp absent; using receipt time", []⟩

/-- The input of a line was injected. -/
def dispatchedRecord (line : Nat) (kind : EventKind) : Log.Record :=
  ⟨.debug, "event dispatched", [("line", .count line), ("event", .text (wireName kind))]⟩

/-- A line was rejected. -/
def rejectedRecord (line : Nat) (reason : Rejection) : Log.Record :=
  ⟨.warn, s!"message rejected: {reason.message}", [("line", .count line)]⟩

/-- The stream could not be shut down. -/
def shutdownRecord (error : IoError) : Log.Record :=
  ⟨.debug, s!"shutdown after close failed: {error.message}", []⟩

/-! ## One line -/

/-- Where a connection stands between two lines, with what it did since a point before, latest
first. -/
structure Work (σ : Type) where
  /-- The state of the backend. -/
  backend : σ
  /-- The number of lines so far. -/
  lines : Nat
  /-- What they came to. -/
  tally : Tally
  /-- The calls of the backend. -/
  calls : List Input := []
  /-- The records. -/
  log : List Log.Record := []

variable {σ : Type}

/-- Counts and reports an injected line. -/
def Work.accept (w : Work σ) (kind : EventKind) : Work σ :=
  { w with
    tally := { w.tally with processed := w.tally.processed + 1 }
    log := dispatchedRecord w.lines kind :: w.log }

/-- Counts and reports a rejected line. -/
def Work.reject (w : Work σ) (reason : Rejection) : Work σ :=
  { w with
    tally := { w.tally with rejected := w.tally.rejected + 1 }
    log := rejectedRecord w.lines reason :: w.log }

/-- Counts a blank line. -/
def Work.skip (w : Work σ) : Work σ :=
  { w with tally := { w.tally with skipped := w.tally.skipped + 1 } }

/-- Hands the input of an event to the backend. -/
def Work.dispatch (w : Work σ) (backend : Injection.Backend σ) (event : Event) : Work σ :=
  let outcome := backend.dispatch w.backend event
  let w := { w with
    backend := outcome.state
    calls := event.input :: w.calls
    log := outcome.log.reverse ++ w.log }
  match outcome.result with
  | .ok () => w.accept event.kind
  | .error e => w.reject (.refused e)

/-- Reports that the time of receipt stood in for a timestamp, if it did. -/
def Work.noteTime (w : Work σ) (defaulted : Bool) : Work σ :=
  { w with log := if defaulted then defaultedRecord :: w.log else w.log }

/-- Decodes a line that is not blank and dispatches its event. -/
def Work.process (w : Work σ) (backend : Injection.Backend σ) (receivedAt : Float) (line : Bytes) :
    Work σ :=
  let decoded := Event.decodeLine line receivedAt
  let w := w.noteTime decoded.defaulted
  match decoded.result with
  | .ok event => w.dispatch backend event
  | .error e => w.reject (.malformed e)

/-- Handles the next line. -/
def Work.handle (backend : Injection.Backend σ) (limit : UInt64) (clock : Nat → Float)
    (w : Work σ) (line : Framing.Line) : Work σ :=
  let w := { w with lines := w.lines + 1 }
  match line with
  | .tooLong => w.reject (.tooLong limit)
  | .text bytes =>
    if bytes.all Ascii.isBlank then w.skip else w.process backend (clock w.lines) bytes

/-! ## A connection between two reads -/

/-- Where an open connection stands. -/
structure State where
  /-- The part of the current line that arrived. -/
  buffer : Framing.Buffer := .empty
  /-- The number of lines so far. -/
  lines : Nat := 0
  /-- What they came to. -/
  tally : Tally := {}
  deriving DecidableEq

/-- What came of a part of a connection. -/
structure Progress (σ : Type) where
  /-- The state of the backend. -/
  backend : σ
  /-- Where the connection stands. -/
  state : State
  /-- What was done. -/
  trace : Trace := {}

/-- Goes on from where a connection stands. -/
def Progress.andThen (p : Progress σ) (next : σ → State → Progress σ) : Progress σ :=
  let q := next p.backend p.state
  { q with trace := p.trace ++ q.trace }

/-- What a connection needs besides its stream. -/
structure Context (σ : Type) where
  /-- The backend. -/
  backend : Injection.Backend σ
  /-- The most bytes of a line. -/
  limit : UInt64
  /-- The time at which the line of a number is received. -/
  clock : Nat → Float

/-- Handles lines in order and goes on with a buffer. -/
def handleLines (ctx : Context σ) (backend : σ) (state : State) (lines : List Framing.Line)
    (buffer : Framing.Buffer) : Progress σ :=
  let w := lines.foldl (Work.handle ctx.backend ctx.limit ctx.clock)
    { backend, lines := state.lines, tally := state.tally }
  { backend := w.backend
    state := { buffer, lines := w.lines, tally := w.tally }
    trace := ⟨w.calls.reverse, w.log.reverse⟩ }

/-- Takes in a chunk. -/
def receive (ctx : Context σ) (backend : σ) (state : State) (chunk : Bytes) : Progress σ :=
  let (lines, buffer) := state.buffer.feed ctx.limit chunk
  handleLines ctx backend state lines buffer

/-- Takes in the end of the stream. -/
def close (ctx : Context σ) (backend : σ) (state : State) : Progress σ :=
  handleLines ctx backend state (state.buffer.close ctx.limit).toList .empty

/-! ## A connection from start to end -/

/-- What ends the stream after its last chunk. -/
inductive StreamEnd where
  /-- The peer closes it. -/
  | closed
  /-- It fails or falls silent. -/
  | failed (error : ConnectionError)
  deriving DecidableEq

/-- What comes of the shutdown of the stream. -/
def teardown : Except IoError Unit → Trace
  | .ok () => {}
  | .error e => { log := [shutdownRecord e] }

/-- Takes in the end of the stream and shuts it down, which may fail. -/
def finish (ctx : Context σ) (backend : σ) (state : State) (ending : StreamEnd)
    (shutdown : Except IoError Unit) : σ × Summary × Trace :=
  let (progress, ending) :=
    match ending with
    | .closed => (close ctx backend state, ConnectionEnd.peerClosed)
    | .failed e => ({ backend, state }, ConnectionEnd.failed e)
  (progress.backend, ⟨progress.state.tally, ending⟩, progress.trace ++ teardown shutdown)

/-- Takes in chunks in order. -/
def receiveAll (ctx : Context σ) (backend : σ) (state : State) : List Bytes → Progress σ
  | [] => { backend, state }
  | chunk :: chunks =>
    (receive ctx backend state chunk).andThen fun backend state =>
      receiveAll ctx backend state chunks

/-- Handles a connection whose stream delivers chunks and then ends. -/
def run (ctx : Context σ) (backend : σ) (chunks : List Bytes) (ending : StreamEnd)
    (shutdown : Except IoError Unit) : σ × Summary × Trace :=
  let p := receiveAll ctx backend {} chunks
  let (backend, summary, trace) := finish ctx p.backend p.state ending shutdown
  (backend, summary, p.trace ++ trace)

end Connection

end RemoteInput
