import Mathlib.Data.List.Forall2
import RemoteInput.Proofs.Accounts

/-!
# Skipping blank lines hides nothing

A connection skips the lines whose bytes are all blank, and the reader of JSON skips blanks on
its own.  The two do not mean quite the same: a form feed is blank in a line and not in a JSON
text.  But no value starts with a form feed, and a text without one is blank for both, so a
blank line is no JSON text either way (`Json.read_blank`).

So the check for blank lines could be left out.  To say what would become of a connection then,
its loop is written here with the check as a parameter (`runSkipping`).  With the check for
blanks it is the connection as it is (`runSkipping_blank`).  Beside it goes the loop that skips
nothing.  After each line the two stand at the same place, with the same calls behind them
(`Work.handleSkipping_abreast`), and what differs is the account of the blank lines: skipped in
the one, rejected in the other (`run_unskipped`).
-/

namespace RemoteInput

/-! ## Blank texts -/

namespace Json

/-- What is wrong with a blank text.  A value is due where its first form feed stands, or else
where it ends. -/
def blankError (text : Bytes) : SyntaxError :=
  match text.dropWhile (· != Ascii.formFeed) with
  | [] => (⟨.endInValue, []⟩ : Fault).toError text
  | _ :: rest => (⟨.expectedValue, rest⟩ : Fault).toError text

namespace Reader

variable {text : Bytes}

theorem isBlank_of_blank {b : UInt8} (h : Ascii.isBlank b = true) :
    isBlank b = (b != Ascii.formFeed) := by
  simp only [Ascii.isBlank, Bool.or_eq_true, beq_iff_eq] at h
  rcases h with (((rfl | rfl) | rfl) | rfl) | rfl <;> rfl

/-- In a blank text the reader skips everything up to the first form feed. -/
theorem skipBlank_blank (h : text.all Ascii.isBlank = true) :
    skipBlank text = text.dropWhile (· != Ascii.formFeed) := by
  induction text with
  | nil => rfl
  | cons b text ih =>
      obtain ⟨hb, htext⟩ := Bool.and_eq_true_iff.mp h
      rw [skipBlank, List.dropWhile_cons, List.dropWhile_cons, isBlank_of_blank hb, ← ih htext]
      rfl

end Reader

/-- A blank text is no JSON text. -/
theorem read_blank {text : Bytes} (h : text.all Ascii.isBlank = true) :
    read text = .error (blankError text) := by
  have hskip := Reader.skipBlank_blank h
  rw [read, Reader.document, Reader.maxDepth, Reader.value, Reader.valueWith, hskip, blankError]
  cases hrest : text.dropWhile (· != Ascii.formFeed) with
  | nil => rfl
  | cons b rest =>
      have hhead := List.head?_dropWhile_not (· != Ascii.formFeed) text
      rw [hrest] at hhead
      obtain rfl : b = Ascii.formFeed := by simpa using hhead
      rfl

/-- A text that holds a value is not blank. -/
theorem all_isBlank_of_read {text : Bytes} {v : Json} (h : read text = .ok v) :
    text.all Ascii.isBlank = false := by
  cases hblank : text.all Ascii.isBlank with
  | false => rfl
  | true =>
      rw [read_blank hblank] at h
      cases h

end Json

/-- A blank line is no message. -/
theorem Event.decodeLine_blank {bytes : Bytes} (h : bytes.all Ascii.isBlank = true) (time : Float) :
    Event.decodeLine bytes time = ⟨false, .error (.malformedMessage (Json.blankError bytes))⟩ := by
  rw [Event.decodeLine, Json.read_blank h]

namespace Connection

variable {σ : Type}

/-! ## The loop with its check as a parameter -/

/-- Handles the next line of a connection that skips the lines which pass a check. -/
def Work.handleSkipping (skips : Bytes → Bool) (ctx : Context σ) (w : Work σ)
    (line : Framing.Line) : Work σ :=
  let w := { w with lines := w.lines + 1 }
  match line with
  | .tooLong => w.reject (.tooLong ctx.limit)
  | .text bytes =>
    if skips bytes then w.skip else w.process ctx.backend (ctx.clock w.lines) bytes

/-- Reads the rest of a stream chunk by chunk and skips the lines which pass a check. -/
def readSkipping (skips : Bytes → Bool) (ctx : Context σ) (w : Work σ) (buffer : Framing.Buffer) :
    List Bytes → StreamEnd → Work σ
  | [], .closed => (buffer.close ctx.limit).toList.foldl (Work.handleSkipping skips ctx) w
  | [], .failed _ => w
  | chunk :: chunks, ending =>
    let (lines, buffer) := buffer.feed ctx.limit chunk
    readSkipping skips ctx (lines.foldl (Work.handleSkipping skips ctx) w) buffer chunks ending

/-- Handles a connection, from its start to its shutdown, and skips the lines which pass a check. -/
def runSkipping (skips : Bytes → Bool) (ctx : Context σ) (backend : σ) (chunks : List Bytes)
    (ending : StreamEnd) (shutdown : Except IoError Unit) : σ × Summary × Trace :=
  let w := readSkipping skips ctx { backend, lines := 0, tally := {} } .empty chunks ending
  (w.backend, ⟨w.tally, endingOf ending⟩, ⟨w.calls.reverse, w.log.reverse⟩ ++ teardown shutdown)

section Loop

variable (skips : Bytes → Bool) (ctx : Context σ)

theorem readSkipping_closed (w : Work σ) (buffer : Framing.Buffer) (chunks : List Bytes) :
    readSkipping skips ctx w buffer chunks .closed =
      (buffer.readAll ctx.limit chunks).foldl (Work.handleSkipping skips ctx) w := by
  induction chunks generalizing w buffer with
  | nil => rfl
  | cons chunk chunks ih =>
      rw [readSkipping, Framing.Buffer.readAll, List.foldl_append]
      exact ih ..

theorem readSkipping_failed (w : Work σ) (piece : Bytes) (chunks : List Bytes)
    (e : ConnectionError) :
    readSkipping skips ctx w (.holding ctx.limit piece) chunks (.failed e) =
      (Framing.endedLines ctx.limit piece chunks.flatten).1.foldl
        (Work.handleSkipping skips ctx) w := by
  induction chunks generalizing w piece with
  | nil => rfl
  | cons chunk chunks ih =>
      rw [readSkipping, Framing.Buffer.feed_holding, List.flatten_cons, Framing.endedLines_append,
        List.foldl_append]
      exact ih ..

/-- Reading chunk by chunk handles the lines that a connection handles, whatever the check is. -/
theorem readSkipping_eq_foldl (w : Work σ) (chunks : List Bytes) (ending : StreamEnd) :
    readSkipping skips ctx w .empty chunks ending =
      (handledLines ctx.limit chunks ending).foldl (Work.handleSkipping skips ctx) w := by
  cases ending with
  | closed => exact readSkipping_closed skips ctx w .empty chunks
  | failed e =>
      rw [← Framing.Buffer.holding_nil ctx.limit, readSkipping_failed, handledLines,
        Framing.Buffer.readAll_empty, List.flatten_singleton, Framing.endedLines_eq_linesAfter]

end Loop

/-- A connection skips the blank lines. -/
theorem runSkipping_blank (ctx : Context σ) (backend : σ) (chunks : List Bytes)
    (ending : StreamEnd) (shutdown : Except IoError Unit) :
    runSkipping (·.all Ascii.isBlank) ctx backend chunks ending shutdown =
      run ctx backend chunks ending shutdown := by
  rw [run_eq_handleLines, runSkipping, readSkipping_eq_foldl]
  rfl

/-! ## The account of a blank line that is not skipped -/

/-- The account of a line if none is skipped: a blank line is rejected, as no JSON text. -/
def Account.unskipped (line : Framing.Line) (a : Account) : Account :=
  match line, a.verdict with
  | .text bytes, .skipped =>
    { a with verdict := .rejected (.malformed (.malformedMessage (Json.blankError bytes))) }
  | _, _ => a

theorem Account.unskipped_eq_self {a : Account} (h : a.verdict.isSkipped = false)
    (line : Framing.Line) : a.unskipped line = a := by
  obtain ⟨notes, verdict⟩ := a
  cases line with
  | tooLong => rfl
  | text bytes =>
      cases verdict with
      | skipped => cases h
      | dispatched kind => rfl
      | rejected reason => rfl

variable {backend : Injection.Backend σ} {limit : UInt64}

theorem AccountOf.isSkipped_eq {bytes : Bytes} {a : Account}
    (h : AccountOf backend limit (.text bytes) a) :
    a.verdict.isSkipped = bytes.all Ascii.isBlank := by
  cases h with
  | blank h => exact h.symm
  | malformed h => exact h.symm
  | @answered _ _ _ event _ _ result _ h =>
      rw [h]
      cases result <;> rfl

/-- The lines that were skipped are counted as rejected then, and all others as before. -/
theorem tallyOf_unskipped {lines : List Framing.Line} {accounts : List Account}
    (h : List.Forall₂ (AccountOf backend limit) lines accounts) :
    tallyOf (List.zipWith Account.unskipped lines accounts) =
      ⟨(tallyOf accounts).processed, (tallyOf accounts).rejected + (tallyOf accounts).skipped, 0⟩ := by
  induction h with
  | nil => rfl
  | @cons line a lines accounts ha _ ih =>
      have hfirst : tallyOf [a.unskipped line] =
          ⟨(tallyOf [a]).processed, (tallyOf [a]).rejected + (tallyOf [a]).skipped, 0⟩ := by
        cases ha with
        | tooLong => rfl
        | blank => rfl
        | malformed => rfl
        | @answered _ _ _ _ _ _ result => cases result <;> rfl
      rw [List.zipWith_cons_cons, tallyOf_cons, hfirst, ih, tallyOf_cons a accounts]
      simp only [Tally.add_def, Tally.mk.injEq, true_and, and_true]
      exact Nat.add_add_add_comm ..

/-! ## The two loops side by side -/

/-- Whether two standings are the same but for the counters and the records. -/
structure Work.Abreast (v w : Work σ) : Prop where
  backend : v.backend = w.backend
  lines : v.lines = w.lines
  calls : v.calls = w.calls

namespace Work

/-- A blank line that is decoded is rejected. -/
theorem process_blank (backend : Injection.Backend σ) (receivedAt : Float) {bytes : Bytes}
    (h : bytes.all Ascii.isBlank = true) (w : Work σ) :
    w.process backend receivedAt bytes =
      w.reject (.malformed (.malformedMessage (Json.blankError bytes))) := by
  rw [process, Event.decodeLine_blank h]
  rfl

variable {v w : Work σ}

/-- After the next line the loop that skips nothing and the one that skips the blank lines stand at
the same place if they did before.  Both give an account of the line. -/
theorem handleSkipping_abreast (ctx : Context σ) (h : v.Abreast w) (line : Framing.Line) :
    ∃ a, AccountOf ctx.backend ctx.limit line a ∧
      Adds [a] w (w.handleSkipping (·.all Ascii.isBlank) ctx line) ∧
      Adds [a.unskipped line] v (v.handleSkipping (fun _ => false) ctx line) ∧
      (v.handleSkipping (fun _ => false) ctx line).Abreast
        (w.handleSkipping (·.all Ascii.isBlank) ctx line) := by
  have hv : Notes [] v { v with lines := v.lines + 1 } := ⟨rfl, rfl, rfl⟩
  have hw : Notes [] w { w with lines := w.lines + 1 } := ⟨rfl, rfl, rfl⟩
  have hnext : v.lines + 1 = w.lines + 1 := congrArg (· + 1) h.lines
  cases line with
  | tooLong => exact ⟨_, .tooLong, hw.reject _, hv.reject _, ⟨h.backend, hnext, h.calls⟩⟩
  | text bytes =>
      unfold handleSkipping
      cases hblank : bytes.all Ascii.isBlank with
      | true =>
          simp only [hblank, if_true, if_false, Bool.false_eq_true, process_blank _ _ hblank]
          exact ⟨_, .blank hblank, hw.skip, hv.reject _, ⟨h.backend, hnext, h.calls⟩⟩
      | false =>
          simp only [hblank, if_false, Bool.false_eq_true, hnext]
          obtain ⟨a, ha, hadds⟩ := process_account ctx.backend ctx.limit (ctx.clock (w.lines + 1))
            w.backend hblank
          have haddsv := hadds v { v with lines := w.lines + 1 } ⟨hnext.symm, rfl, rfl⟩ h.backend
          have haddsw := hadds w { w with lines := w.lines + 1 } hw rfl
          have hsame := Account.unskipped_eq_self (ha.isSkipped_eq.trans hblank) (.text bytes)
          refine ⟨a, ha, haddsw, hsame.symm ▸ haddsv, ?_⟩
          obtain ⟨hcallsv, hbackendv⟩ := process_effect ctx.backend (ctx.clock (w.lines + 1)) bytes
            { v with lines := w.lines + 1 }
          obtain ⟨hcallsw, hbackendw⟩ := process_effect ctx.backend (ctx.clock (w.lines + 1)) bytes
            { w with lines := w.lines + 1 }
          exact
            { backend := by rw [hbackendv, hbackendw, h.backend]
              lines := by rw [haddsv.lines, haddsw.lines, h.lines]
              calls := by rw [hcallsv, hcallsw, h.calls] }

/-- So they do after any lines. -/
theorem foldl_handleSkipping_abreast (ctx : Context σ) (h : v.Abreast w)
    (lines : List Framing.Line) :
    ∃ accounts, List.Forall₂ (AccountOf ctx.backend ctx.limit) lines accounts ∧
      Adds accounts w (lines.foldl (handleSkipping (·.all Ascii.isBlank) ctx) w) ∧
      Adds (List.zipWith Account.unskipped lines accounts) v
        (lines.foldl (handleSkipping (fun _ => false) ctx) v) ∧
      (lines.foldl (handleSkipping (fun _ => false) ctx) v).Abreast
        (lines.foldl (handleSkipping (·.all Ascii.isBlank) ctx) w) := by
  induction lines generalizing v w with
  | nil => exact ⟨[], .nil, .refl w, .refl v, h⟩
  | cons line lines ih =>
      obtain ⟨a, ha, hw, hv, hnext⟩ := handleSkipping_abreast ctx h line
      obtain ⟨accounts, haccounts, hws, hvs, hlast⟩ := ih hnext
      exact ⟨a :: accounts, .cons ha haccounts, hw.trans hws, hv.trans hvs, hlast⟩

end Work

/-- Skipping blank lines hides no message.  A blank line is no JSON text, whenever it is received.
So a connection without the check for blank lines, in whatever chunks its stream arrives and however
it ends, leaves the backend in the same state, makes the same calls, injects as many inputs and ends
in the same way.  The lines that a connection skips are rejected then, as no JSON text, and counted
and reported so under their numbers.  Every other line has the same account. -/
theorem run_unskipped (ctx : Context σ) (start : σ) (chunks : List Bytes) (ending : StreamEnd)
    (shutdown : Except IoError Unit) :
    let checked := run ctx start chunks ending shutdown
    let unchecked := runSkipping (fun _ => false) ctx start chunks ending shutdown
    let lines := handledLines ctx.limit chunks ending
    (∀ bytes time, bytes.all Ascii.isBlank = true →
      Event.decodeLine bytes time =
        ⟨false, .error (.malformedMessage (Json.blankError bytes))⟩) ∧
      runSkipping (·.all Ascii.isBlank) ctx start chunks ending shutdown = checked ∧
      unchecked.1 = checked.1 ∧
      unchecked.2.2.calls = checked.2.2.calls ∧
      unchecked.2.1 =
        ⟨⟨checked.2.1.tally.processed, checked.2.1.tally.rejected + checked.2.1.tally.skipped, 0⟩,
          checked.2.1.ending⟩ ∧
      ∃ accounts, List.Forall₂ (AccountOf ctx.backend ctx.limit) lines accounts ∧
        checked.2.1.tally = tallyOf accounts ∧
        checked.2.2.log = recordsFrom 1 accounts ++ (teardown shutdown).log ∧
        unchecked.2.2.log =
          recordsFrom 1 (List.zipWith Account.unskipped lines accounts) ++
            (teardown shutdown).log := by
  have hblank := runSkipping_blank ctx start chunks ending shutdown
  have hstart : Work.Abreast (σ := σ) { backend := start, lines := 0, tally := {} }
      { backend := start, lines := 0, tally := {} } := ⟨rfl, rfl, rfl⟩
  obtain ⟨accounts, haccounts, hw, hv, hlast⟩ := Work.foldl_handleSkipping_abreast ctx hstart
    (handledLines ctx.limit chunks ending)
  rw [← hblank]
  simp only [runSkipping, readSkipping_eq_foldl]
  refine ⟨fun bytes time h => Event.decodeLine_blank h time, trivial, hlast.backend, ?_, ?_,
    accounts, haccounts, ?_, ?_, ?_⟩
  · rw [Trace.calls_append, Trace.calls_append, hlast.calls]
  · rw [hv.tally, hw.tally, Tally.zero_add, Tally.zero_add, tallyOf_unskipped haccounts]
  · rw [hw.tally, Tally.zero_add]
  · rw [Trace.log_append, hw.log, List.append_nil, List.reverse_reverse]
  · rw [Trace.log_append, hv.log, List.append_nil, List.reverse_reverse]

/-- Two events with a line of blanks and a line with a form feed between them. -/
def spacedChunks : List Bytes :=
  [ Utf8.encode (Event.line ⟨0, .system .sleep⟩) ++ [Ascii.space, Ascii.carriageReturn],
    [Ascii.newline, Ascii.tab, Ascii.formFeed, Ascii.newline],
    Utf8.encode (Event.line ⟨0, .trackpad .move 1 0⟩) ]

/-- The reader of JSON stops at the form feed. -/
theorem run_unskipped_spaced :
    let unchecked := runSkipping (fun _ => false) ⟨Injection.recording, 80, fun _ => 0⟩ []
      spacedChunks .closed (.ok ())
    [Ascii.tab, Ascii.formFeed].all Ascii.isBlank = true ∧
      (Event.decodeLine [Ascii.tab, Ascii.formFeed] 0).result =
        .error (.malformedMessage ⟨.expectedValue, ⟨1, 2⟩⟩) ∧
      unchecked.2.2.calls = [.system .sleep, .trackpad .move 1 0] ∧
      unchecked.2.1 = ⟨{ processed := 2, rejected := 2 }, .peerClosed⟩ := by
  have hblanks : [Ascii.tab, Ascii.formFeed].all Ascii.isBlank = true := by decide
  obtain ⟨hblank, -, -, hcalls, hsummary, -⟩ := run_unskipped
    ⟨Injection.recording, 80, fun _ => 0⟩ [] spacedChunks .closed (.ok ())
  exact ⟨hblanks, congrArg Decoded.result (hblank _ 0 hblanks), hcalls.trans (by decide +kernel),
    hsummary.trans (by decide +kernel)⟩

end Connection

end RemoteInput
