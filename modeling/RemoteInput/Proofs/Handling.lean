import RemoteInput.Connection.Handler
import RemoteInput.Proofs.Framing

/-!
# Handling chunks is handling lines

What a connection did so far has no part in what it does next
(`Work.handle_onTop`).  So lines may be handled in several goes, and the traces
of the goes follow each other (`handleLines_append`).  A connection that takes in
chunks and then the end of its stream therefore handles the lines of the stream
(`receiveAll_close`), and what is known of the framing carries over to it.

Before the end of its stream, a connection stands where the bytes so far take it,
however they arrived (`progress`, `receiveAll_eq_progress`).  If the stream then
fails, the line that did not end is not handled, and all else is as if the peer
had closed the stream after the last line feed (`run_failed`).
-/

namespace RemoteInput.Connection

variable {σ : Type}

/-! ## What was done before -/

/-- The same standing, with things done before. -/
def Work.onTop (w : Work σ) (calls : List Input) (log : List Log.Record) : Work σ :=
  { w with calls := w.calls ++ calls, log := w.log ++ log }

theorem Work.dispatch_onTop (backend : Injection.Backend σ) (event : Event) (w : Work σ)
    (calls : List Input) (log : List Log.Record) :
    (w.onTop calls log).dispatch backend event = (w.dispatch backend event).onTop calls log := by
  unfold Work.dispatch
  cases hresult : (backend.dispatch w.backend event).result with
  | ok => simp [Work.onTop, Work.accept, hresult]
  | error e => simp [Work.onTop, Work.reject, hresult]

theorem Work.noteTime_onTop (defaulted : Bool) (w : Work σ) (calls : List Input)
    (log : List Log.Record) :
    (w.onTop calls log).noteTime defaulted = (w.noteTime defaulted).onTop calls log := by
  cases defaulted <;> simp [Work.noteTime, Work.onTop]

theorem Work.process_onTop (backend : Injection.Backend σ) (receivedAt : Float) (line : Bytes)
    (w : Work σ) (calls : List Input) (log : List Log.Record) :
    (w.onTop calls log).process backend receivedAt line =
      (w.process backend receivedAt line).onTop calls log := by
  simp only [Work.process, Work.noteTime_onTop]
  cases (Event.decodeLine line receivedAt).result with
  | ok event => exact Work.dispatch_onTop ..
  | error e => simp [Work.onTop, Work.reject]

/-- What was done before plays no part in what a line comes to. -/
theorem Work.handle_onTop (backend : Injection.Backend σ) (limit : UInt64) (clock : Nat → Float)
    (line : Framing.Line) (w : Work σ) (calls : List Input) (log : List Log.Record) :
    Work.handle backend limit clock (w.onTop calls log) line =
      (Work.handle backend limit clock w line).onTop calls log := by
  cases line with
  | tooLong => simp [Work.handle, Work.onTop, Work.reject]
  | text bytes =>
      unfold Work.handle
      by_cases hblank : bytes.all Ascii.isBlank = true
      · simp [Work.onTop, Work.skip, hblank]
      · simp only [hblank, if_false, Bool.false_eq_true]
        exact Work.process_onTop backend _ bytes { w with lines := w.lines + 1 } calls log

theorem Work.foldl_handle_onTop (backend : Injection.Backend σ) (limit : UInt64)
    (clock : Nat → Float) (lines : List Framing.Line) (w : Work σ) (calls : List Input)
    (log : List Log.Record) :
    lines.foldl (Work.handle backend limit clock) (w.onTop calls log) =
      (lines.foldl (Work.handle backend limit clock) w).onTop calls log := by
  induction lines generalizing w with
  | nil => rfl
  | cons line lines ih => rw [List.foldl_cons, Work.handle_onTop, ih, List.foldl_cons]

/-! ## Several goes -/

theorem Progress.andThen_assoc (p : Progress σ) (f g : σ → State → Progress σ) :
    (p.andThen f).andThen g = p.andThen fun backend state => (f backend state).andThen g := by
  simp [Progress.andThen, Trace.append_assoc]

/-- Lines may be handled in two goes.  The buffer between them does not matter. -/
theorem handleLines_append (ctx : Context σ) (backend : σ) (state : State)
    (first second : List Framing.Line) (between buffer : Framing.Buffer) :
    handleLines ctx backend state (first ++ second) buffer =
      (handleLines ctx backend state first between).andThen fun backend state =>
        handleLines ctx backend state second buffer := by
  unfold handleLines Progress.andThen
  rw [List.foldl_append]
  generalize first.foldl (Work.handle ctx.backend ctx.limit ctx.clock)
    { backend, lines := state.lines, tally := state.tally } = w
  -- The second go starts with nothing done, on top of which the first one is put back.
  have hw : w = ({ backend := w.backend, lines := w.lines, tally := w.tally } : Work σ).onTop
      w.calls w.log := by
    simp [Work.onTop]
  have hrest : second.foldl (Work.handle ctx.backend ctx.limit ctx.clock) w =
      (second.foldl (Work.handle ctx.backend ctx.limit ctx.clock)
        { backend := w.backend, lines := w.lines, tally := w.tally }).onTop w.calls w.log := by
    rw [← Work.foldl_handle_onTop, ← hw]
  rw [hrest]
  simp only [Work.onTop, List.reverse_append]
  rfl

/-- A connection that takes in chunks and then the end of its stream handles the lines that the
reader makes of them. -/
theorem receiveAll_close (ctx : Context σ) (backend : σ) (state : State) (chunks : List Bytes) :
    ((receiveAll ctx backend state chunks).andThen fun backend state => close ctx backend state) =
      handleLines ctx backend state (state.buffer.readAll ctx.limit chunks) .empty := by
  induction chunks generalizing backend state with
  | nil => simp [receiveAll, Progress.andThen, close, Framing.Buffer.readAll]
  | cons chunk chunks ih =>
      rw [receiveAll, Progress.andThen_assoc, receive, Framing.Buffer.readAll,
        handleLines_append ctx backend state _ _ (state.buffer.feed ctx.limit chunk).2]
      simp only [ih]
      rfl

/-- A connection whose peer closes the stream handles the lines of the stream and shuts it down. -/
theorem run_closed (ctx : Context σ) (backend : σ) (chunks : List Bytes)
    (shutdown : Except IoError Unit) :
    run ctx backend chunks .closed shutdown =
      let p := handleLines ctx backend {} (Framing.Buffer.empty.readAll ctx.limit chunks) .empty
      (p.backend, ⟨p.state.tally, .peerClosed⟩, p.trace ++ teardown shutdown) := by
  have hlines := receiveAll_close ctx backend {} chunks
  rw [← hlines]
  simp [run, finish, Progress.andThen, Trace.append_assoc]

/-! ## Before the end of the stream -/

/-- Where the bytes of a stream take a connection while the stream goes on. -/
def progress (ctx : Context σ) (backend : σ) (stream : Bytes) : Progress σ :=
  let (lines, piece) := Framing.endedLines ctx.limit [] stream
  handleLines ctx backend {} lines (.holding ctx.limit piece)

theorem progress_nil (ctx : Context σ) (backend : σ) :
    progress ctx backend [] = { backend, state := {} } := by
  simp only [progress, Framing.endedLines, Framing.Buffer.holding_nil]
  rfl

/-- More bytes take a connection from where it stands to where all of them take it. -/
theorem progress_append (ctx : Context σ) (backend : σ) (stream chunk : Bytes) :
    progress ctx backend (stream ++ chunk) =
      (progress ctx backend stream).andThen fun backend state =>
        receive ctx backend state chunk := by
  unfold progress
  rw [Framing.endedLines_append]
  simp only
  rw [handleLines_append ctx backend {} _ _
    (.holding ctx.limit (Framing.endedLines ctx.limit [] stream).2)]
  simp only [Progress.andThen, receive, handleLines, Framing.Buffer.feed_holding]

theorem progress_receiveAll (ctx : Context σ) (backend : σ) (stream : Bytes)
    (chunks : List Bytes) :
    ((progress ctx backend stream).andThen fun backend state =>
        receiveAll ctx backend state chunks) =
      progress ctx backend (stream ++ chunks.flatten) := by
  induction chunks generalizing stream with
  | nil => simp [receiveAll, Progress.andThen]
  | cons chunk chunks ih =>
      rw [List.flatten_cons, ← List.append_assoc, ← ih, progress_append, Progress.andThen_assoc]
      rfl

/-- It does not matter in which chunks the bytes arrive. -/
theorem receiveAll_eq_progress (ctx : Context σ) (backend : σ) (chunks : List Bytes) :
    receiveAll ctx backend {} chunks = progress ctx backend chunks.flatten := by
  have hall := progress_receiveAll ctx backend [] chunks
  rw [progress_nil, List.nil_append] at hall
  rw [← hall]
  simp [Progress.andThen]

/-- A stream that fails does to a connection what the stream cut after its last line feed does to it
when the peer closes that one, except that the connection ends as failed. -/
theorem run_failed (ctx : Context σ) (backend : σ) {chunks whole : List Bytes}
    (error : ConnectionError) (shutdown : Except IoError Unit)
    (hwhole : whole.flatten = Framing.wholeLines chunks.flatten) :
    run ctx backend chunks (.failed error) shutdown =
      let (backend, summary, trace) := run ctx backend whole .closed shutdown
      (backend, { summary with ending := .failed error }, trace) := by
  rw [run_closed, ← Framing.Buffer.holding_nil ctx.limit, Framing.Buffer.readAll_holding, hwhole,
    ← Framing.endedLines_eq_linesAfter]
  unfold run
  rw [receiveAll_eq_progress]
  simp [finish, progress, handleLines]

/-! ## The lines that are handled -/

/-- The lines of a stream that are handled: all of them if the peer closes it, and those that ended
if it fails. -/
def handledLines (limit : UInt64) (chunks : List Bytes) : StreamEnd → List Framing.Line
  | .closed => Framing.Buffer.empty.readAll limit chunks
  | .failed _ => Framing.Buffer.empty.readAll limit [Framing.wholeLines chunks.flatten]

/-- How a connection ends whose stream ends in a way. -/
def endingOf : StreamEnd → ConnectionEnd
  | .closed => .peerClosed
  | .failed error => .failed error

/-- A connection handles lines and shuts its stream down, and does nothing else. -/
theorem run_eq_handleLines (ctx : Context σ) (backend : σ) (chunks : List Bytes)
    (ending : StreamEnd) (shutdown : Except IoError Unit) :
    run ctx backend chunks ending shutdown =
      let p := handleLines ctx backend {} (handledLines ctx.limit chunks ending) .empty
      (p.backend, ⟨p.state.tally, endingOf ending⟩, p.trace ++ teardown shutdown) := by
  cases ending with
  | closed => exact run_closed ctx backend chunks shutdown
  | failed error =>
      rw [run_failed ctx backend error shutdown List.flatten_singleton, run_closed]
      rfl

end RemoteInput.Connection
