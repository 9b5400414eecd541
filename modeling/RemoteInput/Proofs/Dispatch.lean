import RemoteInput.Event.Encode
import RemoteInput.Injection.Backends
import RemoteInput.Proofs.Handling
import RemoteInput.Proofs.Basics

/-!
# Every line is dispatched once and in order

`inputOf?` says which input a line asks for: that of the event it decodes to, if
it is within the limit, not blank and decodes at all.  It knows of no backend,
and the time of receipt plays no part in it (`inputOf?_congr`).

Handling a line hands exactly that input to the backend, once, whatever the
backend makes of it (`Work.handle_effect`).  So the inputs that a connection
hands to its backend are those of the lines of its stream, in order
(`run_calls`).
-/

namespace RemoteInput

/-- The state of a backend after some inputs in order. -/
def Injection.Backend.after {σ : Type} (backend : Injection.Backend σ) (state : σ)
    (inputs : List Input) : σ :=
  inputs.foldl (fun s input => (backend.inject s input).state) state

/-- The recording backend remembers what it is handed. -/
theorem Injection.after_recording (seen inputs : List Input) :
    recording.after seen inputs = seen ++ inputs := by
  induction inputs generalizing seen with
  | nil => simp [Backend.after]
  | cons input inputs ih =>
      have hrest := ih (seen ++ [input])
      rw [List.append_assoc, List.singleton_append] at hrest
      exact hrest

namespace Connection

variable {σ : Type}

/-! ## The input of a line -/

/-- The input that a line asks for. -/
def inputOf? (receivedAt : Float) : Framing.Line → Option Input
  | .tooLong => none
  | .text bytes =>
    if bytes.all Ascii.isBlank then none
    else ((Event.decodeLine bytes receivedAt).result.toOption).map Event.input

/-- Two outcomes of reading a message that differ in the time of the event at most. -/
structure SameButTime {ε : Type} (d d' : Decoded ε) : Prop where
  defaulted : d.defaulted = d'.defaulted
  input : d.result.map Event.input = d'.result.map Event.input

/-- The time at which a JSON value is received shows in the time of its event at most. -/
theorem decode_sameButTime (value : Json) (time time' : Float) :
    SameButTime (Event.decode value time) (Event.decode value time') := by
  cases value with
  | object members =>
      simp only [Event.decode]
      cases Decode.kind members with
      | error e => exact ⟨rfl, rfl⟩
      | ok kind =>
          cases Json.Members.get? members "timestamp" with
          | none =>
              dsimp only
              cases Decode.input members kind <;> exact ⟨rfl, rfl⟩
          | some stamp => cases stamp <;> exact ⟨rfl, rfl⟩
  | null => exact ⟨rfl, rfl⟩
  | boolean => exact ⟨rfl, rfl⟩
  | number => exact ⟨rfl, rfl⟩
  | string => exact ⟨rfl, rfl⟩
  | array => exact ⟨rfl, rfl⟩

/-- The time at which a line is received shows in the time of its event at most. -/
theorem decodeLine_sameButTime (line : Bytes) (time time' : Float) :
    SameButTime (Event.decodeLine line time) (Event.decodeLine line time') := by
  unfold Event.decodeLine
  cases Json.read line with
  | error e => exact ⟨rfl, rfl⟩
  | ok value =>
      obtain ⟨hdefaulted, hinput⟩ := decode_sameButTime value time time'
      exact ⟨hdefaulted, by simp only [map_mapError, hinput]⟩

/-- A line asks for the same input whenever it is received. -/
theorem inputOf?_congr (time time' : Float) : inputOf? time = inputOf? time' := by
  funext line
  cases line with
  | tooLong => rfl
  | text bytes =>
      have htoOption : ∀ r : Except MessageError Event,
          r.toOption.map Event.input = (r.map Event.input).toOption := by
        intro r
        cases r <;> rfl
      simp only [inputOf?, htoOption, (decodeLine_sameButTime bytes time time').input]

/-! ## One line -/

/-- The input of an event is handed over once, whether the backend takes it or refuses it. -/
theorem Work.dispatch_effect (backend : Injection.Backend σ) (w : Work σ) (event : Event) :
    (w.dispatch backend event).calls = event.input :: w.calls ∧
      (w.dispatch backend event).backend = (backend.inject w.backend event.input).state := by
  unfold Work.dispatch Injection.Backend.dispatch
  cases hresult : (backend.inject w.backend event.input).result with
  | ok => simp [Work.accept, hresult]
  | error e => simp [Work.reject, hresult]

/-- What decoding a line does to the backend. -/
theorem Work.process_effect (backend : Injection.Backend σ) (receivedAt : Float) (bytes : Bytes)
    (w : Work σ) :
    let inputs := ((Event.decodeLine bytes receivedAt).result.toOption.map Event.input).toList
    (w.process backend receivedAt bytes).calls = inputs ++ w.calls ∧
      (w.process backend receivedAt bytes).backend = backend.after w.backend inputs := by
  simp only [Work.process]
  cases (Event.decodeLine bytes receivedAt).result with
  | ok event => exact Work.dispatch_effect ..
  | error e => exact ⟨rfl, rfl⟩

/-- What handling a line does to the backend.  A line that asks for no input leaves it alone. -/
theorem Work.handle_effect (backend : Injection.Backend σ) (limit : UInt64)
    (clock : Nat → Float) (w : Work σ) (line : Framing.Line) (time : Float) :
    (Work.handle backend limit clock w line).calls = (inputOf? time line).toList ++ w.calls ∧
      (Work.handle backend limit clock w line).backend =
        backend.after w.backend (inputOf? time line).toList := by
  cases line with
  | tooLong => exact ⟨rfl, rfl⟩
  | text bytes =>
      rw [inputOf?_congr time (clock (w.lines + 1))]
      by_cases hblank : bytes.all Ascii.isBlank = true
      · simp [Work.handle, Work.skip, inputOf?, hblank, Injection.Backend.after]
      · simp only [Work.handle, inputOf?, hblank, if_false, Bool.false_eq_true]
        exact Work.process_effect backend _ bytes { w with lines := w.lines + 1 }

/-! ## Many lines -/

theorem Work.foldl_handle_effect (backend : Injection.Backend σ) (limit : UInt64)
    (clock : Nat → Float) (time : Float) (lines : List Framing.Line) (w : Work σ) :
    (lines.foldl (Work.handle backend limit clock) w).calls =
        (lines.filterMap (inputOf? time)).reverse ++ w.calls ∧
      (lines.foldl (Work.handle backend limit clock) w).backend =
        backend.after w.backend (lines.filterMap (inputOf? time)) := by
  induction lines generalizing w with
  | nil => exact ⟨rfl, rfl⟩
  | cons line lines ih =>
      obtain ⟨hcalls, hbackend⟩ := Work.handle_effect backend limit clock w line time
      obtain ⟨ihcalls, ihbackend⟩ := ih (Work.handle backend limit clock w line)
      rw [List.foldl_cons, ihcalls, ihbackend, hcalls, hbackend]
      cases hinput : inputOf? time line with
      | none => simp [hinput, Injection.Backend.after]
      | some input => simp [hinput, Injection.Backend.after]

theorem handleLines_calls (ctx : Context σ) (backend : σ) (state : State)
    (lines : List Framing.Line) (buffer : Framing.Buffer) (time : Float) :
    (handleLines ctx backend state lines buffer).trace.calls =
        lines.filterMap (inputOf? time) ∧
      (handleLines ctx backend state lines buffer).backend =
        ctx.backend.after backend (lines.filterMap (inputOf? time)) := by
  obtain ⟨hcalls, hbackend⟩ := Work.foldl_handle_effect ctx.backend ctx.limit ctx.clock time lines
    { backend, lines := state.lines, tally := state.tally }
  refine ⟨?_, hbackend⟩
  simp [handleLines, hcalls]

/-- Whatever the backend does, a connection hands it the inputs of the lines of the stream, each
line's once and in order, and the backend is where these take it. -/
theorem run_calls (ctx : Context σ) (backend : σ) (chunks : List Bytes)
    (shutdown : Except IoError Unit) (time : Float)
    (h : Framing.Addressable ctx.limit chunks.flatten) :
    (run ctx backend chunks .closed shutdown).2.2.calls =
        (Framing.lines ctx.limit chunks.flatten).filterMap (inputOf? time) ∧
      (run ctx backend chunks .closed shutdown).1 =
        ctx.backend.after backend
          ((Framing.lines ctx.limit chunks.flatten).filterMap (inputOf? time)) := by
  have hlines : Framing.Buffer.empty.readAll ctx.limit chunks =
      Framing.lines ctx.limit chunks.flatten := by
    rw [← Framing.Buffer.holding_nil ctx.limit, Framing.Buffer.readAll_holding,
      Framing.linesAfter_eq_lines h]
  obtain ⟨hcalls, hbackend⟩ := handleLines_calls ctx backend {}
    (Framing.lines ctx.limit chunks.flatten) .empty time
  rw [run_closed, hlines]
  refine ⟨?_, hbackend⟩
  cases shutdown <;> simp [hcalls, teardown]

/-- Two events with a blank line, a line past the limit and a line that is no event between them,
the first event cut in two. -/
def mixedChunks : List Bytes :=
  [ (Utf8.encode (Event.line ⟨0, .system .sleep⟩)).take 20,
    (Utf8.encode (Event.line ⟨0, .system .sleep⟩)).drop 20 ++ [0x20, 0x0D, 0x0A],
    List.replicate 90 0x7B ++ [0x0A, 0x7B, 0x7D, 0x0A],
    Utf8.encode (Event.line ⟨0, .trackpad .move 1 0⟩) ]

/-- A backend that refuses every input still gets each of them once. -/
theorem run_calls_failing :
    Framing.Addressable 80 mixedChunks.flatten ∧
      (run ⟨Injection.failing, 80, fun _ => 0⟩ [] mixedChunks .closed (.ok ())).2.2.calls =
        [.system .sleep, .trackpad .move 1 0] :=
  have h : Framing.Addressable 80 mixedChunks.flatten := Or.inl (by decide)
  ⟨h, (run_calls _ _ _ _ 0 h).1.trans (by decide +kernel)⟩

end Connection

end RemoteInput
