import RemoteInput.Proofs.Dispatch
import RemoteInput.Proofs.Messages

/-!
# From a sender to the backend

A sender writes the lines of its events one after another.  A line holds one
line feed, at its end, and no carriage return, since every control character of
a key is escaped (`Event.le_of_mem_body`).  So the reader finds the same lines
again, each is decoded as its event with the numbers read back, and the
recording backend ends up with the inputs of the events, one for each
(`run_encoded`).
-/

namespace RemoteInput

namespace Connection

variable {limit : UInt64}

/-! ## One line -/

/-- The line that the reader makes of a written event within the limit. -/
theorem framed_body {e : Event} (h : (Utf8.encode e.line).length ≤ limit.toNat + 1) :
    Framing.framed limit (Utf8.encode e.body) = .text (Utf8.encode e.body) := by
  rw [Event.encode_line, List.length_append] at h
  exact Framing.framed_eq_text (Nat.le_of_succ_le_succ h) (e.not_mem_encode_body (by decide))

/-- A written event asks for its own input with the numbers read back. -/
theorem inputOf?_body {e e' : Event} (h : e.reread = some e') (time : Float) :
    inputOf? time (.text (Utf8.encode e.body)) = some e'.input := by
  have hblanks : ∀ b ∈ ([] : Bytes), Json.Reader.isBlank b = true := by simp
  have hdecode := Event.decodeLine_body hblanks h time
  rw [List.append_nil] at hdecode
  have hblank : (Utf8.encode e.body).all Ascii.isBlank = false := by
    rw [Event.body, Json.Reader.encode_object]
    rfl
  simp only [inputOf?, hblank, hdecode]
  rfl

/-! ## The recording backend -/

/-- A line that asks for an input is counted as processed, since the backend takes every input. -/
theorem Work.handle_recording {clock : Nat → Float} {line : Framing.Line} {time : Float}
    (h : (inputOf? time line).isSome = true) (w : Work (List Input)) :
    (Work.handle Injection.recording limit clock w line).tally =
      { w.tally with processed := w.tally.processed + 1 } := by
  rw [inputOf?_congr time (clock (w.lines + 1))] at h
  cases line with
  | tooLong => cases h
  | text bytes =>
      simp only [inputOf?] at h
      split at h
      · cases h
      · next hblank =>
        simp only [Work.handle, Work.process, hblank, if_false, Bool.false_eq_true]
        cases hdecode : (Event.decodeLine bytes (clock (w.lines + 1))).result with
        | error e =>
            rw [hdecode] at h
            cases h
        | ok event => rfl

theorem Work.foldl_handle_recording {clock : Nat → Float} {lines : List Framing.Line}
    {time : Float} (h : ∀ line ∈ lines, (inputOf? time line).isSome = true)
    (w : Work (List Input)) :
    (lines.foldl (Work.handle Injection.recording limit clock) w).tally =
      { w.tally with processed := w.tally.processed + lines.length } := by
  induction lines generalizing w with
  | nil => rfl
  | cons line lines ih =>
      have hcount : w.tally.processed + 1 + lines.length =
          w.tally.processed + (lines.length + 1) := by omega
      rw [List.foldl_cons, ih (fun l hl => h l (List.mem_cons_of_mem _ hl)),
        Work.handle_recording (h line (List.mem_cons_self ..)), List.length_cons]
      simp only [hcount]

/-- If every line of a stream asks for an input, the recording backend is handed each of them, and
every line is processed. -/
theorem run_recording {chunks : List Bytes} {lines : List Framing.Line} {inputs : List Input}
    (hlines : Framing.Buffer.empty.readAll limit chunks = lines)
    (hinputs : lines.map (inputOf? 0) = inputs.map some) (clock : Nat → Float)
    (shutdown : Except IoError Unit) :
    ∃ trace, run ⟨Injection.recording, limit, clock⟩ [] chunks .closed shutdown =
        (inputs, ⟨⟨lines.length, 0, 0⟩, .peerClosed⟩, trace) ∧
      trace.calls = inputs := by
  have hfound : lines.filterMap (inputOf? 0) = inputs :=
    calc
      lines.filterMap (inputOf? 0) = (lines.map (inputOf? 0)).filterMap id := by
        rw [List.filterMap_map]
        rfl
      _ = inputs := by
        rw [hinputs, List.filterMap_map]
        simp
  have hsome : ∀ line ∈ lines, (inputOf? 0 line).isSome = true := by
    intro line hline
    have hmem := List.mem_map_of_mem (f := inputOf? 0) hline
    rw [hinputs] at hmem
    obtain ⟨input, -, hinput⟩ := List.mem_map.mp hmem
    rw [← hinput, Option.isSome_some]
  -- What the backend gets is known for every backend.  The tally depends on this one.
  obtain ⟨hcalls, hbackend⟩ :=
    handleLines_calls ⟨Injection.recording, limit, clock⟩ [] {} lines .empty 0
  have htally : (handleLines ⟨Injection.recording, limit, clock⟩ [] {} lines .empty).state.tally =
      ⟨lines.length, 0, 0⟩ := by
    refine (Work.foldl_handle_recording hsome { backend := [], lines := 0, tally := {} }).trans ?_
    simp
  rw [hfound] at hcalls hbackend
  rw [Injection.after_recording, List.nil_append] at hbackend
  rw [run_closed, hlines]
  refine ⟨_, Prod.ext hbackend (Prod.ext (congrArg (Summary.mk · .peerClosed) htally) rfl), ?_⟩
  rw [Trace.calls_append, hcalls]
  cases shutdown <;> simp [teardown]

/-! ## Many lines -/

/-- Whatever the chunks are, the reader finds the lines that were written. -/
theorem readAll_events {events : List Event} {chunks : List Bytes}
    (hlimit : ∀ e ∈ events, (Utf8.encode e.line).length ≤ limit.toNat + 1)
    (hchunks : chunks.flatten = events.flatMap fun e => Utf8.encode e.line) :
    Framing.Buffer.empty.readAll limit chunks =
      events.map fun e => .text (Utf8.encode e.body) := by
  have hstream : chunks.flatten =
      (events.map fun e => Utf8.encode e.body).flatMap (· ++ [Ascii.newline]) := by
    rw [hchunks, List.flatMap_map]
    simp only [Event.encode_line]
  have hnewline : ∀ p ∈ events.map (fun e => Utf8.encode e.body), Ascii.newline ∉ p := by
    intro p hp
    obtain ⟨e, -, rfl⟩ := List.mem_map.mp hp
    exact e.not_mem_encode_body (by decide)
  rw [← Framing.Buffer.holding_nil limit, Framing.Buffer.readAll_holding, hstream,
    Framing.linesAfter_flatMap limit hnewline, List.map_map]
  exact List.map_congr_left fun e he => framed_body (hlimit e he)

/-- Finite events are encoded, each as its line. -/
theorem mapM_encodeLine {events : List Event} (h : ∀ e ∈ events, e.isFinite = true) :
    events.mapM Event.encodeLine = .ok (events.map fun e => String.ofList e.line) := by
  induction events with
  | nil => rfl
  | cons e events ih =>
      have hline : e.encodeLine = .ok (String.ofList e.line) := by
        rw [Event.encodeLine, if_pos (h e (List.mem_cons_self ..))]
      rw [List.mapM_cons, hline, ih fun e' he' => h e' (List.mem_cons_of_mem _ he')]
      rfl

/-- The lines of finite events whose numbers are read back reach the recording backend, however they
arrive: every event is processed, and the backend is handed the input of each in order, with the
numbers read back and all else unchanged. -/
theorem run_encoded (events : List Event) (hfinite : ∀ e ∈ events, e.isFinite = true)
    (hread : ∀ e ∈ events, ∀ x ∈ e.numbers, (Encode.reread x).isSome = true) :
    ∃ texts, events.mapM Event.encodeLine = .ok texts ∧
      ∃ calls : List Input, events.map (fun e => e.input.reread) = calls.map some ∧
        ∀ (limit : UInt64) (clock : Nat → Float) (chunks : List Bytes)
          (shutdown : Except IoError Unit),
          (∀ text ∈ texts, (Utf8.encode text.toList).length ≤ limit.toNat + 1) →
          chunks.flatten = texts.flatMap (fun text => Utf8.encode text.toList) →
          ∃ trace, run ⟨Injection.recording, limit, clock⟩ [] chunks .closed shutdown =
              (calls, ⟨⟨events.length, 0, 0⟩, .peerClosed⟩, trace) ∧
            trace.calls = calls := by
  have hcall : ∀ e ∈ events, e.reread = some (e.reread.getD e) := by
    intro e he
    obtain ⟨e', he'⟩ := Option.isSome_iff_exists.mp (Event.isSome_reread.mpr (hread e he))
    rw [he', Option.getD_some]
  refine ⟨_, mapM_encodeLine hfinite, events.map fun e => (e.reread.getD e).input, ?_, ?_⟩
  · rw [List.map_map]
    exact List.map_congr_left fun e he => Event.input_of_reread (hcall e he)
  · intro limit clock chunks shutdown hlimit hchunks
    have hlengths : ∀ e ∈ events, (Utf8.encode e.line).length ≤ limit.toNat + 1 := by
      intro e he
      have htext := hlimit _ (List.mem_map_of_mem he)
      rwa [String.toList_ofList] at htext
    rw [List.flatMap_map] at hchunks
    simp only [String.toList_ofList] at hchunks
    have hinputs : (events.map fun e => Framing.Line.text (Utf8.encode e.body)).map (inputOf? 0) =
        (events.map fun e => (e.reread.getD e).input).map some := by
      rw [List.map_map, List.map_map]
      refine List.map_congr_left fun e he => ?_
      rw [Function.comp_apply, Function.comp_apply, inputOf?_body (hcall e he)]
    have hrun := run_recording (readAll_events hlengths hchunks) hinputs clock shutdown
    rwa [List.length_map] at hrun

/-- A key that looks like the end of a message and another one. -/
def hostileKey : String :=
  "\"\x7d\r\n\x7b\"event_type\":\"SYSTEM\",\"command\":\"SLEEP\"\x7d\\\u0001é"

/-- Three events, the first with that key. -/
def hostileEvents : List Event :=
  [ ⟨1700000000.125, .keyboard hostileKey .down (.ofList [.alt, .cmd])⟩,
    ⟨0, .trackpad .move 0.1 (-2)⟩,
    ⟨1, .system .sleep⟩ ]

/-- The bytes of texts in two chunks. -/
def cutTexts (n : Nat) (texts : List String) : List Bytes :=
  let stream := texts.flatMap fun text => Utf8.encode text.toList
  [stream.take n, stream.drop n]

theorem flatten_cutTexts (n : Nat) (texts : List String) :
    (cutTexts n texts).flatten = texts.flatMap fun text => Utf8.encode text.toList := by
  simp only [cutTexts, List.flatten_cons, List.flatten_nil, List.append_nil,
    List.take_append_drop]

/-- The key comes through as it is, though the stream is cut inside it. -/
theorem run_encoded_hostile :
    ∃ texts, hostileEvents.mapM Event.encodeLine = .ok texts ∧
      ∃ trace, run ⟨Injection.recording, 200, fun _ => 0⟩ [] (cutTexts 60 texts) .closed (.ok ()) =
        (hostileEvents.map Event.input, ⟨⟨3, 0, 0⟩, .peerClosed⟩, trace) := by
  obtain ⟨texts, htexts, calls, hcalls, hrun⟩ :=
    run_encoded hostileEvents (by decide +kernel) (by decide +kernel)
  refine ⟨texts, htexts, ?_⟩
  have hlimit : ∀ text ∈ texts, (Utf8.encode text.toList).length ≤ (200 : UInt64).toNat + 1 := by
    have hlines : ∀ e ∈ hostileEvents, (Utf8.encode e.line).length ≤ 201 := by decide +kernel
    rw [mapM_encodeLine (by decide +kernel)] at htexts
    rw [← Except.ok.inj htexts]
    intro text htext
    obtain ⟨e, he, rfl⟩ := List.mem_map.mp htext
    rw [String.toList_ofList]
    exact hlines e he
  have hinputs : hostileEvents.map (fun e => e.input.reread) =
      (hostileEvents.map Event.input).map some := by decide +kernel
  have hsame : calls = hostileEvents.map Event.input :=
    (List.map_inj_right fun _ _ => Option.some.inj).mp (hcalls.symm.trans hinputs)
  obtain ⟨trace, hresult, -⟩ := hrun 200 (fun _ => 0) (cutTexts 60 texts) (.ok ()) hlimit
    (flatten_cutTexts 60 texts)
  rw [hsame] at hresult
  exact ⟨trace, hresult⟩

end Connection

end RemoteInput
