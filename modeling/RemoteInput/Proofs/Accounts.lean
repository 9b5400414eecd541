import Mathlib.Data.List.Forall2
import RemoteInput.Event.Encode
import RemoteInput.Injection.Backends
import RemoteInput.Proofs.Dispatch

/-!
# Every line is accounted for

An account of a line says what the line came to, which is one of three verdicts,
and what was noted on the way to it.  `AccountOf` gives the accounts that a line
admits.  It knows of no counters and no line numbers.

Handling a line adds the account of the line to the counters and, under the
number of the line, to the records (`Work.handle_account`).  So what lines leave
behind is what their accounts say, added up and numbered from the first one
(`handleLines_accounts`), and the counters of a connection account for every line
of its stream (`run_accounts`).

A backend may report what it likes.  If its own records do not carry line
numbers (`Injection.Unnumbered`), the verdicts can be told from the records, and
the numbered records are the verdicts in the order of the lines.
-/

namespace RemoteInput

/-! ## Numbered records -/

/-- Whether a record carries the number of a line. -/
def Log.Record.isNumbered (r : Log.Record) : Bool := r.fields.any fun f => f.1 == "line"

namespace Injection

/-- A backend whose own records do not carry line numbers. -/
class Unnumbered {σ : Type} (backend : Backend σ) : Prop where
  isNumbered_eq (s : σ) (i : Input) : ∀ r ∈ (backend.inject s i).log, r.isNumbered = false

instance : Unnumbered recording := ⟨fun _ _ _ h => absurd h (List.not_mem_nil)⟩

instance : Unnumbered failing := ⟨fun _ _ _ h => absurd h (List.not_mem_nil)⟩

/-- What the logging backend reports are the names of an input and its parts. -/
theorem record_eq_ok {i : Input} {r : Log.Record} (h : record i = .ok r) :
    r.level = .info ∧ r.isNumbered = false := by
  cases i with
  | keyboard key action modifiers =>
      unfold record at h
      cases hcode : Keyboard.code? key with
      | none => simp [hcode] at h
      | some code =>
          simp only [hcode, Except.ok.injEq] at h
          subst h
          exact ⟨rfl, rfl⟩
  | trackpad action dx dy =>
      obtain rfl := Except.ok.inj h
      exact ⟨rfl, rfl⟩
  | system command =>
      obtain rfl := Except.ok.inj h
      exact ⟨rfl, rfl⟩

instance : Unnumbered logging where
  isNumbered_eq _ i r h := by
    unfold logging at h
    cases hrecord : record i with
    | ok r' =>
        simp only [hrecord, List.mem_singleton] at h
        exact h ▸ (record_eq_ok hrecord).2
    | error e => simp [hrecord] at h

end Injection

/-! ## Counters -/

instance : Add Tally where
  add a b := ⟨a.processed + b.processed, a.rejected + b.rejected, a.skipped + b.skipped⟩

theorem Tally.add_def (a b : Tally) :
    a + b = ⟨a.processed + b.processed, a.rejected + b.rejected, a.skipped + b.skipped⟩ := rfl

theorem Tally.zero_add (a : Tally) : ({} : Tally) + a = a := by
  simp [Tally.add_def]

theorem Tally.add_zero (a : Tally) : a + ({} : Tally) = a := rfl

theorem Tally.add_assoc (a b c : Tally) : a + b + c = a + (b + c) := by
  simp [Tally.add_def, Nat.add_assoc]

namespace Connection

variable {σ : Type}

/-! ## Accounts -/

/-- What a line comes to. -/
inductive Verdict where
  /-- It is blank. -/
  | skipped
  /-- Its input was injected. -/
  | dispatched (kind : EventKind)
  /-- It was rejected. -/
  | rejected (reason : Rejection)
  deriving DecidableEq

namespace Verdict

/-- The verdict on an event that the backend answered. -/
def ofResult (kind : EventKind) : Except InjectionError Unit → Verdict
  | .ok () => .dispatched kind
  | .error e => .rejected (.refused e)

def isSkipped : Verdict → Bool
  | .skipped => true
  | _ => false

def isDispatched : Verdict → Bool
  | .dispatched _ => true
  | _ => false

def isRejected : Verdict → Bool
  | .rejected _ => true
  | _ => false

/-- What a record calls the event of a line. -/
def tagOf : EventKind → String
  | .keyboard => "KEYBOARD"
  | .trackpad => "TRACKPAD"
  | .system => "SYSTEM"

/-- What a record says of why a line was rejected. -/
def reasonOf : Rejection → String
  | .malformed e => e.message
  | .refused e => s!"injection failed: {e.message}"
  | .tooLong limit => s!"line exceeds {limit} bytes"

/-- The record of a verdict on the line of a number, unless the line is blank. -/
def record? (number : Nat) : Verdict → Option Log.Record
  | .skipped => none
  | .dispatched kind =>
    some ⟨.debug, "event dispatched", [("line", .count number), ("event", .text (tagOf kind))]⟩
  | .rejected reason =>
    some ⟨.warn, s!"message rejected: {reasonOf reason}", [("line", .count number)]⟩

theorem record?_dispatched (number : Nat) (kind : EventKind) :
    (dispatched kind).record? number = some (dispatchedRecord number kind) := by
  cases kind <;> rfl

theorem record?_rejected (number : Nat) (reason : Rejection) :
    (rejected reason).record? number = some (rejectedRecord number reason) := by
  cases reason <;> rfl

theorem isNumbered_record? {number : Nat} {v : Verdict} {r : Log.Record}
    (h : v.record? number = some r) : r.isNumbered = true := by
  cases v with
  | skipped => cases h
  | dispatched kind =>
      obtain rfl := Option.some.inj h
      rfl
  | rejected reason =>
      obtain rfl := Option.some.inj h
      rfl

end Verdict

/-- What there is to say of a line, whatever its number is. -/
structure Account where
  /-- What was reported before the verdict. -/
  notes : List Log.Record
  /-- What the line came to. -/
  verdict : Verdict

/-- The note that the time of receipt stood in for a timestamp, if it did. -/
def timeNote (defaulted : Bool) : List Log.Record :=
  if defaulted then [⟨.trace, "timestamp absent; using receipt time", []⟩] else []

/-- The record of a shutdown, if it fails. -/
def shutdownNote : Except IoError Unit → List Log.Record
  | .ok () => []
  | .error e => [⟨.debug, s!"shutdown after close failed: {e.message}", []⟩]

theorem teardown_eq (shutdown : Except IoError Unit) :
    teardown shutdown = ⟨[], shutdownNote shutdown⟩ := by
  cases shutdown <;> rfl

/-- The accounts that a line admits.  They differ in the time at which the line is received and the
state in which it finds the backend. -/
inductive AccountOf (backend : Injection.Backend σ) (limit : UInt64) :
    Framing.Line → Account → Prop where
  | tooLong : AccountOf backend limit .tooLong ⟨[], .rejected (.tooLong limit)⟩
  | blank {bytes : Bytes} (h : bytes.all Ascii.isBlank = true) :
    AccountOf backend limit (.text bytes) ⟨[], .skipped⟩
  | malformed {bytes : Bytes} {time : Float} {defaulted : Bool} {e : MessageError}
    (h : bytes.all Ascii.isBlank = false)
    (hdecode : Event.decodeLine bytes time = ⟨defaulted, .error e⟩) :
    AccountOf backend limit (.text bytes) ⟨timeNote defaulted, .rejected (.malformed e)⟩
  | answered {bytes : Bytes} {time : Float} {defaulted : Bool} {event : Event}
    {state state' : σ} {result : Except InjectionError Unit} {log : List Log.Record}
    (h : bytes.all Ascii.isBlank = false)
    (hdecode : Event.decodeLine bytes time = ⟨defaulted, .ok event⟩)
    (hinject : backend.inject state event.input = ⟨state', result, log⟩) :
    AccountOf backend limit (.text bytes)
      ⟨timeNote defaulted ++ log, .ofResult event.kind result⟩

/-- The records that a line leaves under its number. -/
def Account.records (number : Nat) (a : Account) : List Log.Record :=
  a.notes ++ (a.verdict.record? number).toList

/-- The records that lines leave which are numbered from a first one on. -/
def recordsFrom (first : Nat) (accounts : List Account) : List Log.Record :=
  (accounts.zipIdx first).flatMap fun a => a.1.records a.2

/-- How many lines came to what. -/
def tallyOf (accounts : List Account) : Tally where
  processed := accounts.countP (·.verdict.isDispatched)
  rejected := accounts.countP (·.verdict.isRejected)
  skipped := accounts.countP (·.verdict.isSkipped)

theorem recordsFrom_cons (first : Nat) (a : Account) (accounts : List Account) :
    recordsFrom first (a :: accounts) = a.records first ++ recordsFrom (first + 1) accounts := by
  rw [recordsFrom, List.zipIdx_cons, List.flatMap_cons]
  rfl

theorem recordsFrom_append (first : Nat) (accounts accounts' : List Account) :
    recordsFrom first (accounts ++ accounts') =
      recordsFrom first accounts ++ recordsFrom (first + accounts.length) accounts' := by
  rw [recordsFrom, List.zipIdx_append, List.flatMap_append]
  rfl

theorem tallyOf_append (accounts accounts' : List Account) :
    tallyOf (accounts ++ accounts') = tallyOf accounts + tallyOf accounts' := by
  simp [tallyOf, Tally.add_def]

theorem tallyOf_cons (a : Account) (accounts : List Account) :
    tallyOf (a :: accounts) = tallyOf [a] + tallyOf accounts := tallyOf_append [a] accounts

/-- Every line is counted once. -/
theorem tallyOf_total (accounts : List Account) :
    (tallyOf accounts).processed + (tallyOf accounts).rejected + (tallyOf accounts).skipped =
      accounts.length := by
  induction accounts with
  | nil => rfl
  | cons a accounts ih =>
      obtain ⟨notes, verdict⟩ := a
      rw [tallyOf_cons, List.length_cons, ← ih]
      cases verdict <;>
        simp only [tallyOf, Tally.add_def, Verdict.isDispatched, Verdict.isRejected,
          Verdict.isSkipped, List.countP_cons, List.countP_nil, if_true, if_false,
          Bool.false_eq_true] <;>
        omega

/-! ## One line -/

/-- Whether one standing is another after the lines of some accounts. -/
structure Work.Adds (accounts : List Account) (w w' : Work σ) : Prop where
  lines : w'.lines = w.lines + accounts.length
  tally : w'.tally = w.tally + tallyOf accounts
  log : w'.log = (recordsFrom (w.lines + 1) accounts).reverse ++ w.log

/-- Whether one standing is another within the next line, when some things were noted of it and
there is no verdict yet. -/
structure Work.Notes (notes : List Log.Record) (w w' : Work σ) : Prop where
  lines : w'.lines = w.lines + 1
  tally : w'.tally = w.tally
  log : w'.log = notes.reverse ++ w.log

namespace Work

variable {w w' w'' : Work σ} {notes : List Log.Record} {accounts accounts' : List Account}

theorem Notes.skip (h : Notes [] w w') : Adds [⟨[], .skipped⟩] w w'.skip :=
  ⟨h.lines, by rw [Work.skip, h.tally]; rfl, h.log⟩

theorem Notes.accept (h : Notes notes w w') (kind : EventKind) :
    Adds [⟨notes, .dispatched kind⟩] w (w'.accept kind) where
  lines := h.lines
  tally := by rw [Work.accept, h.tally]; rfl
  log := by
    simp [Work.accept, h.lines, h.log, recordsFrom, Account.records, Verdict.record?_dispatched]

theorem Notes.reject (h : Notes notes w w') (reason : Rejection) :
    Adds [⟨notes, .rejected reason⟩] w (w'.reject reason) where
  lines := h.lines
  tally := by rw [Work.reject, h.tally]; rfl
  log := by
    simp [Work.reject, h.lines, h.log, recordsFrom, Account.records, Verdict.record?_rejected]

theorem Notes.noteTime (h : Notes [] w w') (defaulted : Bool) :
    Notes (timeNote defaulted) w (w'.noteTime defaulted) where
  lines := h.lines
  tally := h.tally
  log := by
    rw [Work.noteTime, h.log]
    cases defaulted <;> rfl

theorem Notes.dispatch {backend : Injection.Backend σ} (h : Notes notes w w') {event : Event}
    {state : σ} {result : Except InjectionError Unit} {log : List Log.Record}
    (hinject : backend.inject w'.backend event.input = ⟨state, result, log⟩) :
    Adds [⟨notes ++ log, .ofResult event.kind result⟩] w (w'.dispatch backend event) := by
  have hnext : Notes (notes ++ log) w
      { w' with
        backend := state
        calls := event.input :: w'.calls
        log := log.reverse ++ w'.log } :=
    ⟨h.lines, h.tally, by rw [h.log, List.reverse_append, List.append_assoc]⟩
  unfold Work.dispatch Injection.Backend.dispatch
  rw [hinject]
  cases result with
  | ok => exact hnext.accept _
  | error e => exact hnext.reject _

/-- Decoding a line gives the same account of it wherever a connection stands, if the backend is in
the same state. -/
theorem process_account (backend : Injection.Backend σ) (limit : UInt64) (receivedAt : Float)
    (state : σ) {bytes : Bytes} (hblank : bytes.all Ascii.isBlank = false) :
    ∃ a, AccountOf backend limit (.text bytes) a ∧
      ∀ w w' : Work σ, Notes [] w w' → w'.backend = state →
        Adds [a] w (w'.process backend receivedAt bytes) := by
  unfold process
  cases hdecode : Event.decodeLine bytes receivedAt with
  | mk defaulted result =>
      cases result with
      | error e =>
          exact ⟨_, .malformed hblank hdecode, fun w w' h _ => (h.noteTime _).reject _⟩
      | ok event =>
          cases hinject : backend.inject state event.input with
          | mk state' result log =>
              refine ⟨_, .answered hblank hdecode hinject, fun w w' h hstate => ?_⟩
              exact (h.noteTime _).dispatch (hstate ▸ hinject)

/-- Handling a line gives an account of it. -/
theorem handle_account (backend : Injection.Backend σ) (limit : UInt64) (clock : Nat → Float)
    (w : Work σ) (line : Framing.Line) :
    ∃ a, AccountOf backend limit line a ∧ Adds [a] w (handle backend limit clock w line) := by
  have hcounted : Notes [] w { w with lines := w.lines + 1 } := ⟨rfl, rfl, rfl⟩
  cases line with
  | tooLong => exact ⟨_, .tooLong, hcounted.reject _⟩
  | text bytes =>
      unfold handle
      cases hblank : bytes.all Ascii.isBlank with
      | true =>
          simp only [hblank, if_true]
          exact ⟨_, .blank hblank, hcounted.skip⟩
      | false =>
          simp only [hblank, if_false, Bool.false_eq_true]
          obtain ⟨a, ha, hadds⟩ :=
            process_account backend limit (clock (w.lines + 1)) w.backend hblank
          exact ⟨a, ha, hadds w _ hcounted rfl⟩

/-! ## Many lines -/

theorem Adds.refl (w : Work σ) : Adds [] w w :=
  ⟨rfl, (Tally.add_zero _).symm, rfl⟩

theorem Adds.trans (h : Adds accounts w w') (h' : Adds accounts' w' w'') :
    Adds (accounts ++ accounts') w w'' where
  lines := by rw [h'.lines, h.lines, List.length_append, Nat.add_assoc]
  tally := by rw [h'.tally, h.tally, tallyOf_append, Tally.add_assoc]
  log := by
    have hnext : w.lines + accounts.length + 1 = w.lines + 1 + accounts.length := by omega
    rw [h'.log, h.log, h.lines, recordsFrom_append, hnext, List.reverse_append,
      List.append_assoc]

/-- Handling lines gives an account of each of them, in order. -/
theorem foldl_handle_account (backend : Injection.Backend σ) (limit : UInt64)
    (clock : Nat → Float) (lines : List Framing.Line) (w : Work σ) :
    ∃ accounts, List.Forall₂ (AccountOf backend limit) lines accounts ∧
      Adds accounts w (lines.foldl (handle backend limit clock) w) := by
  induction lines generalizing w with
  | nil => exact ⟨[], .nil, .refl w⟩
  | cons line lines ih =>
      obtain ⟨a, ha, hfirst⟩ := handle_account backend limit clock w line
      obtain ⟨accounts, haccounts, hrest⟩ := ih (handle backend limit clock w line)
      exact ⟨a :: accounts, .cons ha haccounts, hfirst.trans hrest⟩

end Work

/-- What lines leave behind is what their accounts say. -/
theorem handleLines_accounts (ctx : Context σ) (backend : σ) (state : State)
    (lines : List Framing.Line) (buffer : Framing.Buffer) :
    ∃ accounts, List.Forall₂ (AccountOf ctx.backend ctx.limit) lines accounts ∧
      (handleLines ctx backend state lines buffer).state =
        ⟨buffer, state.lines + accounts.length, state.tally + tallyOf accounts⟩ ∧
      (handleLines ctx backend state lines buffer).trace.log =
        recordsFrom (state.lines + 1) accounts := by
  obtain ⟨accounts, haccounts, hadds⟩ := Work.foldl_handle_account ctx.backend ctx.limit ctx.clock
    lines { backend, lines := state.lines, tally := state.tally }
  refine ⟨accounts, haccounts, ?_, ?_⟩
  · simp only [handleLines, hadds.lines, hadds.tally]
  · simp [handleLines, hadds.log]

/-! ## The verdicts among the records -/

/-- The records of the verdicts on lines which are numbered from a first one on. -/
def verdictsFrom (first : Nat) (accounts : List Account) : List Log.Record :=
  (accounts.zipIdx first).filterMap fun a => a.1.verdict.record? a.2

theorem verdictsFrom_cons (first : Nat) (a : Account) (accounts : List Account) :
    verdictsFrom first (a :: accounts) =
      (a.verdict.record? first).toList ++ verdictsFrom (first + 1) accounts := by
  rw [verdictsFrom, List.zipIdx_cons]
  cases hrecord : a.verdict.record? first <;> simp [verdictsFrom, hrecord]

/-- Notes carry no line number if those of the backend do not. -/
theorem AccountOf.isNumbered_notes {backend : Injection.Backend σ} [Injection.Unnumbered backend]
    {limit : UInt64} {line : Framing.Line} {a : Account} (h : AccountOf backend limit line a) :
    ∀ r ∈ a.notes, r.isNumbered = false := by
  have htime : ∀ defaulted, ∀ r ∈ timeNote defaulted, r.isNumbered = false := by decide
  cases h with
  | tooLong => exact fun r hr => absurd hr (List.not_mem_nil)
  | blank => exact fun r hr => absurd hr (List.not_mem_nil)
  | malformed => exact htime _
  | @answered bytes time defaulted event state state' result log hblank hdecode hinject =>
      intro r hr
      rcases List.mem_append.mp hr with hr | hr
      · exact htime _ r hr
      · have hunnumbered : Injection.Unnumbered backend := inferInstance
        refine hunnumbered.isNumbered_eq state event.input r ?_
        rwa [hinject]

/-- If the backend does not number its own records, the numbered records are the verdicts. -/
theorem filter_recordsFrom {backend : Injection.Backend σ} [Injection.Unnumbered backend]
    {limit : UInt64} {lines : List Framing.Line} {accounts : List Account}
    (h : List.Forall₂ (AccountOf backend limit) lines accounts) (first : Nat) :
    (recordsFrom first accounts).filter Log.Record.isNumbered = verdictsFrom first accounts := by
  induction h generalizing first with
  | nil => rfl
  | @cons line a lines accounts ha _ ih =>
      have hnotes : a.notes.filter Log.Record.isNumbered = [] := by
        rw [List.filter_eq_nil_iff]
        exact fun r hr => by simp [ha.isNumbered_notes r hr]
      have hverdict : (a.verdict.record? first).toList.filter Log.Record.isNumbered =
          (a.verdict.record? first).toList := by
        rw [List.filter_eq_self]
        exact fun r hr => Verdict.isNumbered_record? (Option.mem_toList.mp hr)
      rw [recordsFrom_cons, verdictsFrom_cons, List.filter_append, ih, Account.records,
        List.filter_append, hnotes, hverdict, List.nil_append]

/-- The level of a verdict tells whether the input was injected. -/
theorem countP_verdictsFrom (first : Nat) (accounts : List Account) :
    (verdictsFrom first accounts).countP (·.level == .debug) = (tallyOf accounts).processed ∧
      (verdictsFrom first accounts).countP (·.level == .warn) = (tallyOf accounts).rejected := by
  induction accounts generalizing first with
  | nil => exact ⟨rfl, rfl⟩
  | cons a accounts ih =>
      obtain ⟨notes, verdict⟩ := a
      obtain ⟨hprocessed, hrejected⟩ := ih (first + 1)
      rw [verdictsFrom_cons, List.countP_append, List.countP_append, hprocessed, hrejected,
        tallyOf_cons]
      cases verdict <;> exact ⟨rfl, rfl⟩

/-! ## A whole connection -/

theorem isNumbered_shutdownNote (shutdown : Except IoError Unit) :
    (shutdownNote shutdown).filter Log.Record.isNumbered = [] := by
  cases shutdown <;> rfl

/-- A connection whose peer closes the stream does what its lines ask for and what their accounts
say. -/
theorem run_closed_accounts (ctx : Context σ) (start : σ) (chunks : List Bytes)
    (shutdown : Except IoError Unit) :
    ∃ accounts,
      List.Forall₂ (AccountOf ctx.backend ctx.limit)
        (Framing.linesAfter ctx.limit [] chunks.flatten) accounts ∧
      (run ctx start chunks .closed shutdown).2 =
        (⟨tallyOf accounts, .peerClosed⟩,
          ⟨(Framing.linesAfter ctx.limit [] chunks.flatten).filterMap (inputOf? 0),
            recordsFrom 1 accounts ++ shutdownNote shutdown⟩) := by
  have hcalls := (handleLines_calls ctx start {}
    (Framing.linesAfter ctx.limit [] chunks.flatten) .empty 0).1
  obtain ⟨accounts, haccounts, hstate, hlog⟩ := handleLines_accounts ctx start {}
    (Framing.linesAfter ctx.limit [] chunks.flatten) .empty
  refine ⟨accounts, haccounts, ?_⟩
  rw [run_closed, Framing.Buffer.readAll_empty, teardown_eq]
  dsimp only
  rw [hstate, Tally.zero_add]
  refine congrArg _ (Trace.ext ?_ ?_)
  · rw [Trace.calls_append, hcalls, List.append_nil]
  · rw [Trace.log_append, hlog]

/-- The counters of a connection add up to the number of the lines of its stream, and each line has
an account.  The counters count the accounts, and the records are those of the accounts under the
numbers of the lines from one on.  If the backend does not number its own records, the numbered ones
are the verdicts on the lines which are not blank, and they are as many as the counters say. -/
theorem run_accounts (ctx : Context σ) (start : σ) (chunks : List Bytes)
    (shutdown : Except IoError Unit) :
    let tally := (run ctx start chunks .closed shutdown).2.1.tally
    let log := (run ctx start chunks .closed shutdown).2.2.log
    let lines := Framing.linesAfter ctx.limit [] chunks.flatten
    tally.processed + tally.rejected + tally.skipped = Framing.lineCount chunks.flatten ∧
      (Framing.Addressable ctx.limit chunks.flatten →
        lines = Framing.lines ctx.limit chunks.flatten) ∧
      ∃ accounts,
        List.Forall₂ (AccountOf ctx.backend ctx.limit) lines accounts ∧
        tally = tallyOf accounts ∧
        log = recordsFrom 1 accounts ++ shutdownNote shutdown ∧
        (Injection.Unnumbered ctx.backend →
          log.filter Log.Record.isNumbered = verdictsFrom 1 accounts ∧
            tally.processed = log.countP (fun r => r.level == .debug && r.isNumbered) ∧
            tally.rejected = log.countP fun r => r.level == .warn && r.isNumbered) := by
  obtain ⟨accounts, haccounts, hrun⟩ := run_closed_accounts ctx start chunks shutdown
  have hlength : accounts.length = Framing.lineCount chunks.flatten := by
    rw [← haccounts.length_eq, Framing.length_linesAfter ctx.limit List.not_mem_nil,
      List.nil_append]
  rw [hrun]
  refine ⟨(tallyOf_total accounts).trans hlength, Framing.linesAfter_eq_lines, accounts, haccounts,
    rfl, rfl, fun hunnumbered => ?_⟩
  have hfilter : (recordsFrom 1 accounts ++ shutdownNote shutdown).filter
      Log.Record.isNumbered = verdictsFrom 1 accounts := by
    rw [List.filter_append, filter_recordsFrom haccounts, isNumbered_shutdownNote,
      List.append_nil]
  obtain ⟨hprocessed, hrejected⟩ := countP_verdictsFrom 1 accounts
  refine ⟨hfilter, ?_, ?_⟩
  · rw [← List.countP_filter, hfilter, hprocessed]
  · rw [← List.countP_filter, hfilter, hrejected]

/-- Two injected lines, a blank one, one that is too long and one that is no event, and then a
shutdown that fails. -/
theorem run_accounts_mixed :
    let r := run ⟨Injection.recording, 80, fun _ => 0⟩ [] mixedChunks .closed
      (.error ⟨.other, "already gone"⟩)
    Injection.Unnumbered Injection.recording ∧
      r.2.1.tally.processed + r.2.1.tally.rejected + r.2.1.tally.skipped = 5 ∧
      r.2.2.log.countP (fun r => r.level == .debug && r.isNumbered) = 2 ∧
      r.2.2.log.countP (fun r => r.level == .warn && r.isNumbered) = 2 ∧
      r.2.2.log =
        [ ⟨.debug, "event dispatched", [("line", .count 1), ("event", .text "SYSTEM")]⟩,
          ⟨.warn, "message rejected: line exceeds 80 bytes", [("line", .count 3)]⟩,
          ⟨.warn, "message rejected: malformed event: missing required field `event_type`",
            [("line", .count 4)]⟩,
          ⟨.debug, "event dispatched", [("line", .count 5), ("event", .text "TRACKPAD")]⟩,
          ⟨.debug, "shutdown after close failed: already gone", []⟩ ] := by
  obtain ⟨htotal, -, accounts, -, -, -, hcounts⟩ :=
    run_accounts ⟨Injection.recording, 80, fun _ => 0⟩ [] mixedChunks
      (.error ⟨.other, "already gone"⟩)
  obtain ⟨-, hprocessed, hrejected⟩ := hcounts inferInstance
  exact ⟨inferInstance, htotal.trans (by decide +kernel), hprocessed ▸ by decide +kernel,
    hrejected ▸ by decide +kernel, by decide +kernel⟩

end Connection

end RemoteInput
