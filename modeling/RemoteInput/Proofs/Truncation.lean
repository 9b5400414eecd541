import RemoteInput.Proofs.Extension
import RemoteInput.Proofs.Sender

/-!
# Cutting a stream short

A line that the peer closes the stream in is handled like any other.  So a stream
that is cut somewhere is safe only because the start of a message is no other
message.  That is so: a part of a message that is read as an event is read as the
event of the message (`decodeLine_prefix`).  A carriage return at the end of the
part does not matter, because without it the part is a start of the line all the
more (`dropReturn_prefix`).

So if every line of a stream is blank or a message, the calls of a first part of
it are the first calls of the stream, and all the lines that end in that part
are acted on (`run_truncated`).
-/

namespace RemoteInput

/-! ## The first bytes of a line -/

namespace Framing

theorem dropReturn_isPrefix (bytes : Bytes) : dropReturn bytes <+: bytes := by
  unfold dropReturn
  split
  next => exact List.dropLast_prefix bytes
  next => exact List.prefix_refl bytes

theorem dropLast_prefix_dropReturn (bytes : Bytes) : bytes.dropLast <+: dropReturn bytes := by
  unfold dropReturn
  split
  next => exact List.prefix_refl _
  next => exact List.dropLast_prefix bytes

/-- The start of a line without a carriage return is a start of the line without one. -/
theorem dropReturn_prefix {start piece : Bytes} (h : start <+: piece) :
    dropReturn start <+: dropReturn piece := by
  obtain ⟨rest, rfl⟩ := h
  cases rest with
  | nil => exact (List.append_nil start).symm ▸ List.prefix_refl (dropReturn start)
  | cons b rest =>
      have hproper : start <+: (start ++ b :: rest).dropLast := by
        rw [List.dropLast_append_of_ne_nil (List.cons_ne_nil b rest)]
        exact List.prefix_append ..
      exact (dropReturn_isPrefix start).trans
        (hproper.trans (dropLast_prefix_dropReturn _))

/-- A stream is cut in one of its pieces.  The lines before that piece are whole. -/
theorem exists_piece (front back : Bytes) :
    ∃ start rest after, front = wholeLines front ++ start ∧ back = rest ++ after ∧
      Ascii.newline ∉ start ++ rest ∧ (after = [] ∨ ∃ s, after = Ascii.newline :: s) ∧
        start ++ rest ∈ pieces (front ++ back) := by
  obtain ⟨start, hfront, hstart⟩ := wholeLines_append front
  let rest := back.takeWhile (· != Ascii.newline)
  let after := back.dropWhile (· != Ascii.newline)
  have hback : back = rest ++ after := List.takeWhile_append_dropWhile.symm
  have hpiece : Ascii.newline ∉ start ++ rest := by
    rw [List.mem_append, not_or]
    exact ⟨hstart, notMem_takeWhile_newline back⟩
  have hafter : after = [] ∨ ∃ s, after = Ascii.newline :: s := by
    cases hdrop : after with
    | nil => exact .inl rfl
    | cons b s => exact .inr ⟨s, by rw [eq_newline_of_dropWhile hdrop]⟩
  refine ⟨start, rest, after, hfront, hback, hpiece, hafter, ?_⟩
  have hfirst : start ++ rest ∈ pieces ((start ++ rest) ++ after) := by
    obtain hnil | ⟨s, hs⟩ := hafter
    · rw [hnil, List.append_nil, pieces_of_notMem hpiece]
      exact List.mem_singleton_self _
    · rw [hs, pieces_newline, pieces_of_notMem hpiece]
      exact List.mem_append_left _ (List.mem_singleton_self _)
  have hstream : front ++ back = wholeLines front ++ ((start ++ rest) ++ after) := by
    conv => lhs; rw [hfront, hback]
    simp only [List.append_assoc]
  rw [hstream]
  obtain hnil | ⟨f, hf⟩ := wholeLines_eq front
  · rwa [hnil]
  · rw [hf, List.append_assoc, List.singleton_append, pieces_newline]
    exact List.mem_append_right _ hfirst

end Framing

namespace Connection

/-- Whether the bytes of a line are blank, or within the limit and a message. -/
def BlankOrMessage (limit : UInt64) (piece : Bytes) : Prop :=
  piece.all Ascii.isBlank = true ∨
    ∃ bytes time event, Framing.lineOf limit piece = .text bytes ∧
      (Event.decodeLine bytes time).result = .ok event

theorem eq_dropReturn {limit : UInt64} {piece bytes : Bytes}
    (h : Framing.lineOf limit piece = .text bytes) : bytes = Framing.dropReturn piece := by
  unfold Framing.lineOf at h
  dsimp only at h
  split at h
  next => exact (Framing.Line.text.inj h).symm
  next => cases h

/-- A line that is an event at some time is one at any other. -/
theorem exists_event {bytes : Bytes} {time' : Float} {event : Event}
    (h : (Event.decodeLine bytes time').result = .ok event) (time : Float) :
    ∃ event, (Event.decodeLine bytes time).result = .ok event := by
  have hinput := (decodeLine_sameButTime bytes time time').input
  rw [h] at hinput
  cases hresult : (Event.decodeLine bytes time).result with
  | error e =>
      rw [hresult] at hinput
      cases hinput
  | ok event => exact ⟨event, rfl⟩

/-- The start of a line asks for nothing, or for what the line asks for. -/
theorem inputOf?_start {limit : UInt64} {start piece : Bytes} (hleads : start <+: piece)
    (hpiece : BlankOrMessage limit piece) (time : Float) :
    inputOf? time (Framing.lineOf limit start) = none ∨
      inputOf? time (Framing.lineOf limit start) = inputOf? time (Framing.lineOf limit piece) := by
  cases hstart : Framing.lineOf limit start with
  | tooLong => exact .inl rfl
  | text bytes =>
      have hbytes := eq_dropReturn hstart
      by_cases hblank : bytes.all Ascii.isBlank = true
      · exact .inl (by simp [inputOf?, hblank])
      cases hresult : (Event.decodeLine bytes time).result with
      | error e => exact .inl (by simp [inputOf?, hblank, hresult, Except.toOption])
      | ok event =>
          -- What is not blank at the start of the line is not blank in the line either.
          have hvisible : ∀ {t : Bytes}, bytes <+: t → ¬ t.all Ascii.isBlank = true := by
            intro t ht hall
            rw [List.all_eq_true] at hall hblank
            exact hblank fun b hb => hall b (ht.subset hb)
          rcases hpiece with hall | ⟨line, time', event', hline, hevent⟩
          · rw [hbytes] at hvisible
            exact absurd hall (hvisible ((Framing.dropReturn_isPrefix start).trans hleads))
          · have hstarts : bytes <+: line := by
              rw [hbytes, eq_dropReturn hline]
              exact Framing.dropReturn_prefix hleads
            obtain ⟨event'', hevent''⟩ := exists_event hevent time
            obtain rfl := decodeLine_prefix hstarts hresult hevent''
            refine .inr ?_
            simp [hline, inputOf?, hblank, hvisible hstarts, hresult, hevent'']

/-! ## The first bytes of a stream -/

variable {limit : UInt64}

/-- The reader makes of the start of a piece what it stands for. -/
theorem framed_start {stream start piece : Bytes} (h : Framing.Addressable limit stream)
    (hpiece : piece ∈ Framing.pieces stream) (hleads : start <+: piece) :
    Framing.framed limit start = Framing.lineOf limit start :=
  Framing.Buffer.finish_holding
    (h.imp_right fun hall => Nat.lt_of_le_of_lt hleads.length_le (hall piece hpiece))

/-- The lines of a stream that was cut ask for the first inputs that the lines of the stream ask
for. -/
theorem filterMap_inputOf?_prefix {front back : Bytes}
    (h : Framing.Addressable limit (front ++ back))
    (hlines : ∀ piece ∈ Framing.pieces (front ++ back), BlankOrMessage limit piece)
    (time : Float) :
    (Framing.linesAfter limit [] front).filterMap (inputOf? time) <+:
      (Framing.linesAfter limit [] (front ++ back)).filterMap (inputOf? time) := by
  obtain ⟨start, rest, after, hfront, hback, hline, hafter, hpiece⟩ :=
    Framing.exists_piece front back
  have hstart : Ascii.newline ∉ start := fun hmem => hline (List.mem_append_left _ hmem)
  have hstream : front ++ back = Framing.wholeLines front ++ ((start ++ rest) ++ after) := by
    conv => lhs; rw [hfront, hback]
    simp only [List.append_assoc]
  -- Both begin with the lines that end before the cut.
  rw [hstream, Framing.linesAfter_wholeLines, List.filterMap_append]
  conv => lhs; rw [hfront, Framing.linesAfter_wholeLines, List.filterMap_append]
  refine List.prefix_append_right_inj _ |>.mpr ?_
  by_cases hnil : start = []
  · rw [hnil]
    exact List.nil_prefix
  have hcut : Framing.linesAfter limit [] start = [Framing.framed limit start] := by
    have hgoes := Framing.linesAfter_append limit hstart [] []
    rw [List.append_nil, List.nil_append] at hgoes
    rw [hgoes, Framing.linesAfter, if_neg (by simpa using hnil)]
  obtain ⟨later, hwhole⟩ : ∃ later, Framing.linesAfter limit [] ((start ++ rest) ++ after) =
      Framing.framed limit (start ++ rest) :: later := by
    rw [Framing.linesAfter_append limit hline, List.nil_append]
    obtain hend | ⟨s, hs⟩ := hafter
    · rw [hend, Framing.linesAfter, if_neg (by simp [hnil])]
      exact ⟨[], rfl⟩
    · rw [hs, Framing.linesAfter, if_pos rfl]
      exact ⟨_, rfl⟩
  have hleads : start <+: start ++ rest := List.prefix_append ..
  rw [hcut, hwhole, framed_start h hpiece hleads, framed_start h hpiece (List.prefix_refl _)]
  rcases inputOf?_start hleads (hlines _ hpiece) time with hnone | hsame
  · rw [List.filterMap_cons_none hnone, List.filterMap_nil]
    exact List.nil_prefix
  · cases hinput : inputOf? time (Framing.lineOf limit (start ++ rest)) with
    | none =>
        rw [hinput] at hsame
        rw [List.filterMap_cons_none hsame, List.filterMap_nil]
        exact List.nil_prefix
    | some input =>
        rw [hinput] at hsame
        rw [List.filterMap_cons_some hsame, List.filterMap_cons_some hinput, List.filterMap_nil]
        exact List.cons_prefix_cons.mpr ⟨rfl, List.nil_prefix⟩

/-- The inputs that the recording backend was handed until the peer closed the stream. -/
def recorded (limit : UInt64) (clock : Nat → Float) (shutdown : Except IoError Unit)
    (chunks : List Bytes) : List Input :=
  (run ⟨Injection.recording, limit, clock⟩ [] chunks .closed shutdown).1

theorem recorded_eq (clock : Nat → Float) (shutdown : Except IoError Unit) (chunks : List Bytes)
    (time : Float) :
    recorded limit clock shutdown chunks =
      (Framing.linesAfter limit [] chunks.flatten).filterMap (inputOf? time) := by
  unfold recorded
  rw [run_closed, ← Framing.Buffer.holding_nil, Framing.Buffer.readAll_holding]
  dsimp only
  rw [(handleLines_calls _ _ _ _ _ time).2, Injection.after_recording, List.nil_append]

/-- If every line of a stream is blank or a message, then the calls for a first part of it, however
it arrives, are the first calls for the stream, and they begin with the calls for the lines that end
in that part.  So the start of a message never causes another event than the message does. -/
theorem run_truncated (clock : Nat → Float) (shutdown : Except IoError Unit) (k : Nat)
    {stream : Bytes} {whole cut : List Bytes} (hwhole : whole.flatten = stream)
    (hcut : cut.flatten = stream.take k) (haddressable : Framing.Addressable limit stream)
    (hlines : ∀ piece ∈ Framing.linePieces stream, BlankOrMessage limit piece) (time : Float) :
    recorded limit clock shutdown cut <+: recorded limit clock shutdown whole ∧
      (Framing.lines limit (Framing.wholeLines (stream.take k))).filterMap (inputOf? time) <+:
        recorded limit clock shutdown cut := by
  have hpieces : ∀ piece ∈ Framing.pieces stream, BlankOrMessage limit piece := by
    intro piece hmem
    rcases Framing.mem_linePieces_or_nil hmem with hline | rfl
    · exact hlines piece hline
    · exact .inl rfl
  have hstream : stream = stream.take k ++ stream.drop k := (List.take_append_drop k stream).symm
  rw [recorded_eq clock shutdown cut time, recorded_eq clock shutdown whole time, hcut, hwhole]
  constructor
  · conv => rhs; rw [hstream]
    rw [hstream] at haddressable hpieces
    exact filterMap_inputOf?_prefix haddressable hpieces time
  · obtain ⟨tail, htake, -⟩ := Framing.wholeLines_append (stream.take k)
    have hended : Framing.Addressable limit (Framing.wholeLines (stream.take k)) := by
      rw [hstream] at haddressable
      exact haddressable.wholeLines
    rw [← Framing.linesAfter_eq_lines hended]
    conv => rhs; rw [htake, Framing.linesAfter_wholeLines, List.filterMap_append]
    exact List.prefix_append ..

/-- An event, a blank line and another event, whose line has no end. -/
def openStream : Bytes :=
  Utf8.encode (Event.line ⟨0, .system .sleep⟩) ++
    [Ascii.space, Ascii.carriageReturn, Ascii.newline] ++
    Utf8.encode (Event.body ⟨0, .trackpad .move 1 0⟩) ++ [Ascii.space, Ascii.carriageReturn]

/-- Only the closing brace of the second event is missing. -/
theorem run_truncated_openStream :
    Framing.Addressable 80 openStream ∧
      (∀ piece ∈ Framing.linePieces openStream, BlankOrMessage 80 piece) ∧
      [.system .sleep] <+: recorded 80 (fun _ => 0) (.ok ()) [openStream.take 135] ∧
      recorded 80 (fun _ => 0) (.ok ()) [openStream.take 135] <+:
        [.system .sleep, .trackpad .move 1 0] := by
  have haddressable : Framing.Addressable 80 openStream := .inl (by decide)
  have hpieces : Framing.linePieces openStream =
      [ Utf8.encode (Event.body ⟨0, .system .sleep⟩),
        [Ascii.space, Ascii.carriageReturn],
        Utf8.encode (Event.body ⟨0, .trackpad .move 1 0⟩) ++
          [Ascii.space, Ascii.carriageReturn] ] := by decide +kernel
  have hlines : ∀ piece ∈ Framing.linePieces openStream, BlankOrMessage 80 piece := by
    rw [hpieces]
    simp only [List.forall_mem_cons]
    refine ⟨.inr ⟨_, 0, ⟨0, .system .sleep⟩, rfl, ?_⟩, .inl (by decide),
      .inr ⟨_, 0, ⟨0, .trackpad .move 1 0⟩, rfl, ?_⟩, ?_⟩
    · exact Json.Number.eq_ok_of_toOption (by decide +kernel)
    · exact Json.Number.eq_ok_of_toOption (by decide +kernel)
    · simp
  obtain ⟨hcut, hended⟩ := run_truncated (fun _ => 0) (.ok ()) 135 List.flatten_singleton
    List.flatten_singleton haddressable hlines 0
  have hwhole : recorded 80 (fun _ => 0) (.ok ()) [openStream] =
      [.system .sleep, .trackpad .move 1 0] := by decide +kernel
  have hdone : (Framing.lines 80 (Framing.wholeLines (openStream.take 135))).filterMap
      (inputOf? 0) = [.system .sleep] := by decide +kernel
  rw [hwhole] at hcut
  rw [hdone] at hended
  exact ⟨haddressable, hlines, hended, hcut⟩

end Connection

end RemoteInput
