import RemoteInput.Injection.Backends
import RemoteInput.Proofs.Handling

/-!
# What is kept of a line

A sender may send bytes for ever and never a line feed.  What a connection keeps of
them does not grow past the limit by more than one byte.

To see this at every point of a call of the line reader, the call is taken apart
into its steps: what it does with a chunk, with the end of the stream and with a
line whose end has come.  It has one buffer, which fills while the line goes on and
holds the line when the call has returned, or nothing if the line was given up.
`Call.Bounded` says what is true of the buffer throughout.  It is true at the start
and each step keeps it, so it is true of every call that steps lead to
(`Call.Reached.bounded`).  Taken in turn the steps are the line reader
(`answer?_readLine`).

Between two reads a connection holds such a buffer as well, and the lines that it
handles are those that were made of them (`run_bounded`).
-/

namespace RemoteInput

namespace Framing

variable {limit : UInt64}

/-! ## A call of the line reader -/

/-- What a call says of the line. -/
inductive Verdict where
  /-- It is in the buffer. -/
  | line
  /-- It was given up. -/
  | tooLong
  /-- There is none. -/
  | ended
  deriving DecidableEq

/-- Where a call of the line reader stands. -/
inductive Call where
  /-- It waits for more of the line. -/
  | waiting (buffer : Buffer)
  /-- The line has come to its end, and the bytes after it are for the next call. -/
  | complete (buffer : Buffer) (unread : Bytes)
  /-- It has returned, with what it says and what its buffer is left with. -/
  | returned (verdict : Verdict) (kept unread : Bytes)
  deriving DecidableEq

namespace Call

/-- Takes in a chunk, up to the end of the line. -/
def receive (limit : UInt64) (chunk : Bytes) : Call → Call
  | .waiting buffer =>
    let buffer := buffer.absorb limit (chunk.takeWhile (· != Ascii.newline))
    match chunk.dropWhile (· != Ascii.newline) with
    | [] => .waiting buffer
    | _ :: rest => .complete buffer rest
  | .complete buffer unread => .complete buffer (unread ++ chunk)
  | .returned verdict kept unread => .returned verdict kept (unread ++ chunk)

/-- Takes in the end of the stream. -/
def close : Call → Call
  | .waiting buffer =>
    if buffer.isEmpty then .returned .ended buffer.kept [] else .complete buffer []
  | call => call

/-- Settles what became of a line that is complete. -/
def settle (limit : UInt64) : Call → Call
  | .complete buffer unread =>
    let bytes := dropReturn buffer.kept
    if buffer.overflowed || limit.toNat < bytes.length then .returned .tooLong [] unread
    else .returned .line bytes unread
  | call => call

/-- The calls that steps in any order lead to. -/
inductive Reached (limit : UInt64) : Call → Prop where
  | start : Reached limit (.waiting .empty)
  | receive {call : Call} (h : Reached limit call) (chunk : Bytes) :
    Reached limit (call.receive limit chunk)
  | close {call : Call} (h : Reached limit call) : Reached limit call.close
  | settle {call : Call} (h : Reached limit call) : Reached limit (call.settle limit)

/-- The bytes in the buffer. -/
def kept : Call → Bytes
  | .waiting buffer => buffer.kept
  | .complete buffer _ => buffer.kept
  | .returned _ kept _ => kept

/-- What a call that has returned says. -/
def verdict? : Call → Option Verdict
  | .returned verdict _ _ => some verdict
  | _ => none

/-- The line that a call gives, with the bytes after it, if it has returned. -/
def answer? : Call → Option (Option Line × Bytes)
  | .returned .line kept unread => some (some (.text kept), unread)
  | .returned .tooLong _ unread => some (some .tooLong, unread)
  | .returned .ended _ unread => some (none, unread)
  | _ => none

/-- What is true of the buffer throughout a call. -/
structure Bounded (limit : UInt64) (call : Call) : Prop where
  /-- It holds at most one byte past the limit, and no more bytes than a machine can count. -/
  kept_le : call.kept.length ≤ min (limit.toNat + 1) (2 ^ 64 - 1)
  /-- It holds bytes of one line. -/
  newline_notMem : Ascii.newline ∉ call.kept
  /-- If the call gives it as a line, it is within the limit. -/
  line_le : call.verdict? = some .line → call.kept.length ≤ limit.toNat
  /-- If the line was given up, it is empty. -/
  tooLong_nil : call.verdict? = some .tooLong → call.kept = []

end Call

/-! ## The buffer -/

theorem limit_le_capacity (limit : UInt64) : limit.toNat ≤ capacity limit := by
  have hlimit := UInt64.toNat_lt limit
  rw [capacity]
  omega

/-- More bytes do not fill a buffer past its capacity. -/
theorem Buffer.length_absorb_le {buffer : Buffer} (h : buffer.kept.length ≤ capacity limit)
    (bytes : Bytes) : (buffer.absorb limit bytes).kept.length ≤ capacity limit := by
  rw [Buffer.absorb]
  split
  · exact h
  · split
    next => exact Nat.zero_le _
    next hfits =>
        rw [List.length_append]
        exact Nat.le_of_not_lt hfits

theorem Buffer.newline_notMem_absorb (limit : UInt64) {buffer : Buffer}
    (h : Ascii.newline ∉ buffer.kept) {bytes : Bytes} (hbytes : Ascii.newline ∉ bytes) :
    Ascii.newline ∉ (buffer.absorb limit bytes).kept := by
  rw [Buffer.absorb]
  split
  · exact h
  · split
    · exact List.not_mem_nil
    · intro hmem
      rcases List.mem_append.mp hmem with hmem | hmem
      · exact h hmem
      · exact hbytes hmem

theorem dropReturn_subset (bytes : Bytes) : dropReturn bytes ⊆ bytes := by
  rw [dropReturn]
  split
  · exact List.dropLast_subset bytes
  · exact List.Subset.refl bytes

/-! ## The steps of a call -/

namespace Call.Bounded

/-- A call that has not returned has nothing to say yet. -/
theorem of_pending {call : Call} (hpending : call.verdict? = none)
    (hle : call.kept.length ≤ capacity limit) (hline : Ascii.newline ∉ call.kept) :
    call.Bounded limit where
  kept_le := hle
  newline_notMem := hline
  line_le h := by rw [hpending] at h; cases h
  tooLong_nil h := by rw [hpending] at h; cases h

variable {call : Call}

theorem start (limit : UInt64) : Bounded limit (.waiting .empty) :=
  of_pending rfl (Nat.zero_le _) List.not_mem_nil

theorem receive (h : call.Bounded limit) (chunk : Bytes) :
    (call.receive limit chunk).Bounded limit := by
  cases call with
  | waiting buffer =>
      have hle := Buffer.length_absorb_le h.kept_le (chunk.takeWhile (· != Ascii.newline))
      have hline := Buffer.newline_notMem_absorb limit h.newline_notMem
        (notMem_takeWhile_newline chunk)
      rw [Call.receive]
      split
      · exact of_pending rfl hle hline
      · exact of_pending rfl hle hline
  | complete buffer unread => exact of_pending rfl h.kept_le h.newline_notMem
  | returned verdict kept unread => exact ⟨h.kept_le, h.newline_notMem, h.line_le, h.tooLong_nil⟩

theorem close (h : call.Bounded limit) : call.close.Bounded limit := by
  cases call with
  | waiting buffer =>
      rw [Call.close]
      split
      · refine ⟨h.kept_le, h.newline_notMem, ?_, ?_⟩
        · intro hline
          cases hline
        · intro hlong
          cases hlong
      · exact of_pending rfl h.kept_le h.newline_notMem
  | complete buffer unread => exact h
  | returned verdict kept unread => exact h

theorem settle (h : call.Bounded limit) : (call.settle limit).Bounded limit := by
  cases call with
  | waiting buffer => exact h
  | complete buffer unread =>
      rw [Call.settle]
      split
      next =>
          refine ⟨Nat.zero_le _, List.not_mem_nil, ?_, fun _ => rfl⟩
          intro hline
          cases hline
      next hkeeps =>
          rw [Bool.or_eq_true, not_or, decide_eq_true_eq] at hkeeps
          have hle : (dropReturn buffer.kept).length ≤ limit.toNat := Nat.le_of_not_lt hkeeps.2
          refine ⟨Nat.le_trans hle (limit_le_capacity limit), ?_, fun _ => hle, ?_⟩
          · exact fun hmem => h.newline_notMem (dropReturn_subset buffer.kept hmem)
          · intro hlong
            cases hlong
  | returned verdict kept unread => exact h

end Call.Bounded

/-- The buffer of a call is bounded at every point of it, whatever arrives. -/
theorem Call.Reached.bounded {call : Call} (h : call.Reached limit) : call.Bounded limit := by
  induction h with
  | start => exact .start limit
  | receive _ chunk ih => exact ih.receive chunk
  | close _ ih => exact ih.close
  | settle _ ih => exact ih.settle

/-! ## The steps in turn -/

/-- What arrives after the end of the line is left for the next call. -/
theorem foldl_receive_complete (buffer : Buffer) (unread : Bytes) (chunks : List Bytes) :
    chunks.foldl (fun call chunk => Call.receive limit chunk call) (.complete buffer unread) =
      .complete buffer (unread ++ chunks.flatten) := by
  induction chunks generalizing unread with
  | nil => simp
  | cons chunk chunks ih =>
      rw [List.foldl_cons, Call.receive, ih, List.flatten_cons, List.append_assoc]

theorem answer?_settle (buffer : Buffer) (unread : Bytes) :
    ((Call.complete buffer unread).settle limit).answer? =
      some (some (buffer.finish limit), unread) := by
  rw [Call.settle, Buffer.finish]
  split
  · rfl
  · rfl

/-- Taking in the chunks one by one and then the end of the stream gives what the line reader
gives. -/
theorem answer?_readLine (buffer : Buffer) (chunks : List Bytes) :
    ((chunks.foldl (fun call chunk => Call.receive limit chunk call) (.waiting buffer)).close.settle
        limit).answer? =
      some ((buffer.readLine limit chunks).1, (buffer.readLine limit chunks).2.flatten) := by
  induction chunks generalizing buffer with
  | nil =>
      rw [List.foldl_nil, Call.close, Buffer.readLine, Buffer.close]
      split
      · rfl
      · exact answer?_settle buffer []
  | cons chunk chunks ih =>
      rw [List.foldl_cons, Call.receive, Buffer.readLine]
      -- The chunk ends inside the line, or the line ends inside the chunk.
      cases hdrop : chunk.dropWhile (· != Ascii.newline) with
      | nil => exact ih _
      | cons b rest =>
          dsimp only
          rw [foldl_receive_complete, Call.close, answer?_settle, List.flatten_cons]
          rintro _ ⟨⟩

/-! ## Lines -/

/-- Whether a line is one line within the limit, unless it was given up. -/
def Line.Bounded (limit : UInt64) : Line → Prop
  | .tooLong => True
  | .text bytes => bytes.length ≤ limit.toNat ∧ Ascii.newline ∉ bytes

theorem Buffer.length_holding_le (piece : Bytes) :
    (Buffer.holding limit piece).kept.length ≤ capacity limit := by
  rw [Buffer.holding]
  split
  next => exact Nat.zero_le _
  next hfits => exact Nat.le_of_not_lt hfits

theorem framed_bounded {piece : Bytes} (h : Ascii.newline ∉ piece) :
    (framed limit piece).Bounded limit := by
  have hkept : Ascii.newline ∉ (Buffer.holding limit piece).kept := by
    rw [Buffer.holding]
    split
    · exact List.not_mem_nil
    · exact h
  rw [framed, Buffer.finish]
  split
  next => trivial
  next hkeeps =>
      rw [Bool.or_eq_true, not_or, decide_eq_true_eq] at hkeeps
      exact ⟨Nat.le_of_not_lt hkeeps.2, fun hmem => hkept (dropReturn_subset _ hmem)⟩

theorem linesAfter_bounded {piece : Bytes} (h : Ascii.newline ∉ piece) (s : Bytes) :
    ∀ line ∈ linesAfter limit piece s, line.Bounded limit := by
  induction s generalizing piece with
  | nil =>
      intro line hline
      rw [linesAfter] at hline
      split at hline
      · cases hline
      · rw [List.mem_singleton.mp hline]
        exact framed_bounded h
  | cons b s ih =>
      rw [linesAfter]
      split
      next =>
          intro line hline
          rcases List.mem_cons.mp hline with rfl | hline
          · exact framed_bounded h
          · exact ih List.not_mem_nil line hline
      next hother =>
          refine ih ?_
          rw [List.mem_append, List.mem_singleton]
          rintro (hmem | rfl)
          · exact h hmem
          · exact hother rfl

end Framing

/-! ## A whole connection -/

namespace Connection

variable {σ : Type}

/-- The buffer of an open connection does not grow past its capacity, whatever arrived. -/
theorem length_buffer_receiveAll_le (ctx : Context σ) (backend : σ) (chunks : List Bytes) :
    (receiveAll ctx backend {} chunks).state.buffer.kept.length ≤ Framing.capacity ctx.limit := by
  rw [receiveAll_eq_progress]
  exact Framing.Buffer.length_holding_le _

theorem handledLines_bounded (limit : UInt64) (chunks : List Bytes) (ending : StreamEnd) :
    ∀ line ∈ handledLines limit chunks ending, line.Bounded limit := by
  cases ending with
  | closed =>
      rw [handledLines, Framing.Buffer.readAll_empty]
      exact Framing.linesAfter_bounded List.not_mem_nil _
  | failed error =>
      rw [handledLines, Framing.Buffer.readAll_empty]
      exact Framing.linesAfter_bounded List.not_mem_nil _

/-- What is kept of a stream that never ends a line does not grow past the limit by more than one
byte.

Throughout a call of the line reader its buffer holds no more than that, and bytes of one line.  A
call that gives a line leaves it there, and it is within the limit, and a call that gives up a line
leaves nothing.  The calls are those of the reader, which goes through the steps in turn.  So the
lines that a connection decodes are all within the limit, and between two reads its buffer is
bounded as well. -/
theorem run_bounded (ctx : Context σ) (backend : σ) (chunks : List Bytes) (ending : StreamEnd)
    (shutdown : Except IoError Unit) :
    (∀ call : Framing.Call, call.Reached ctx.limit → call.Bounded ctx.limit) ∧
      ((chunks.foldl (fun call chunk => Framing.Call.receive ctx.limit chunk call)
          (.waiting .empty)).close.settle ctx.limit).answer? =
        some ((Framing.Buffer.empty.readLine ctx.limit chunks).1,
          (Framing.Buffer.empty.readLine ctx.limit chunks).2.flatten) ∧
      (receiveAll ctx backend {} chunks).state.buffer.kept.length ≤
        min (ctx.limit.toNat + 1) (2 ^ 64 - 1) ∧
      (∀ line ∈ handledLines ctx.limit chunks ending, line.Bounded ctx.limit) ∧
      run ctx backend chunks ending shutdown =
        let p := handleLines ctx backend {} (handledLines ctx.limit chunks ending) .empty
        (p.backend, ⟨p.state.tally, endingOf ending⟩, p.trace ++ teardown shutdown) := by
  refine ⟨?_, ?_, ?_, ?_, ?_⟩
  · intro call h
    exact h.bounded
  · exact Framing.answer?_readLine .empty chunks
  · exact length_buffer_receiveAll_le ctx backend chunks
  · exact handledLines_bounded ctx.limit chunks ending
  · exact run_eq_handleLines ctx backend chunks ending shutdown

/-- The byte past the limit is of use: a line of two bytes fits into a limit of two with the
carriage return at its end. -/
theorem run_bounded_return :
    let call := Framing.Call.receive 2 [0x61, 0x62, Ascii.carriageReturn] (.waiting .empty)
    call.Reached 2 ∧ call.kept.length = 3 ∧ call.Bounded 2 := by
  have h : Framing.Call.Reached 2
      (Framing.Call.receive 2 [0x61, 0x62, Ascii.carriageReturn] (.waiting .empty)) :=
    .receive .start _
  exact ⟨h, by decide,
    (run_bounded ⟨Injection.recording, 2, fun _ => 0⟩ [] [] .closed (.ok ())).1 _ h⟩

end Connection

end RemoteInput
