import RemoteInput.Proofs.Accounts
import RemoteInput.Proofs.Steady

/-!
# Nothing survives a line feed

A line admits one account only if the backend is steady (`AccountOf.unique`): what
lines came before does not show in it.  So a stream that goes on after a line
feed is handled as two streams, and the only trace that the first one leaves in
what comes of the second one is in the line numbers (`run_afterNewline`).
-/

namespace RemoteInput

/-! ## Other line numbers -/

/-- A field with the number of a line increased, if it is one. -/
def Log.renumberField (n : Nat) : String × Log.Value → String × Log.Value
  | (name, .count k) => (name, .count (if name == "line" then n + k else k))
  | field => field

/-- A record with the line number that it carries increased. -/
def Log.Record.renumber (n : Nat) (r : Log.Record) : Log.Record :=
  { r with fields := r.fields.map (Log.renumberField n) }

/-- A record that carries no line number stays the same. -/
theorem Log.Record.renumber_eq_self {r : Log.Record} (h : r.isNumbered = false) (n : Nat) :
    r.renumber n = r := by
  have hfields : r.fields.map (Log.renumberField n) = r.fields.map id := by
    refine List.map_congr_left fun f hf => ?_
    have hname : ¬ (f.1 == "line") = true := List.any_eq_false.mp h f hf
    obtain ⟨name, value⟩ := f
    cases value with
    | count k => simp [Log.renumberField, hname]
    | text => rfl
    | real => rfl
  rw [renumber, hfields, List.map_id]

namespace Connection

variable {σ : Type}

theorem Verdict.record?_add (n number : Nat) (v : Verdict) :
    v.record? (n + number) = (v.record? number).map (Log.Record.renumber n) := by
  cases v <;> rfl

/-! ## Accounts under other numbers -/

theorem Account.records_add {a : Account} (h : ∀ r ∈ a.notes, r.isNumbered = false)
    (n number : Nat) : a.records (n + number) = (a.records number).map (.renumber n) := by
  have hnotes : a.notes.map (Log.Record.renumber n) = a.notes.map id :=
    List.map_congr_left fun r hr => Log.Record.renumber_eq_self (h r hr) n
  rw [Account.records, Account.records, List.map_append, hnotes, List.map_id,
    Verdict.record?_add, Option.toList_map]

/-- The records of lines that come after others are those that they leave by themselves, under
increased numbers. -/
theorem recordsFrom_add {backend : Injection.Backend σ} [Injection.Unnumbered backend]
    {limit : UInt64} {lines : List Framing.Line} {accounts : List Account}
    (h : List.Forall₂ (AccountOf backend limit) lines accounts) (n first : Nat) :
    recordsFrom (n + first) accounts = (recordsFrom first accounts).map (.renumber n) := by
  induction h generalizing first with
  | nil => rfl
  | cons ha _ ih =>
      rw [recordsFrom_cons, recordsFrom_cons, List.map_append,
        Account.records_add ha.isNumbered_notes, Nat.add_assoc, ih]

/-! ## A stream that goes on -/

theorem linesAfter_newline (limit : UInt64) {first : Bytes}
    (h : first = [] ∨ first.getLast? = some Ascii.newline) (second : Bytes) :
    Framing.linesAfter limit [] (first ++ second) =
      Framing.linesAfter limit [] first ++ Framing.linesAfter limit [] second := by
  have hlines := Framing.linesAfter_wholeLines limit first second
  rwa [Framing.wholeLines_of_newline h] at hlines

/-- Nothing survives a line feed.  If a steady backend does not number its own records, a connection
whose stream goes on after a line feed does what it does with the part before and then what a fresh
connection does with the part after it, in whatever chunks they arrive, in whatever state the fresh
connection finds the backend and whenever its lines are received.  The counters add up, and in the
records of the second part the line numbers are increased by the number of lines of the first
one. -/
theorem run_afterNewline (ctx : Context σ) [Injection.Steady ctx.backend]
    [Injection.Unnumbered ctx.backend] (start start' : σ) (clock : Nat → Float)
    {whole first second : List Bytes} (shutdown : Except IoError Unit)
    (hfirst : first.flatten = [] ∨ first.flatten.getLast? = some Ascii.newline)
    (hwhole : whole.flatten = first.flatten ++ second.flatten) :
    let all := (run ctx start whole .closed shutdown).2
    let before := (run ctx start first .closed (.ok ())).2
    let after := (run { ctx with clock } start' second .closed shutdown).2
    all.2.calls = before.2.calls ++ after.2.calls ∧
      all.1 = ⟨before.1.tally + after.1.tally, .peerClosed⟩ ∧
      all.2.log = before.2.log ++
        after.2.log.map (Log.Record.renumber (Framing.lineCount first.flatten)) := by
  obtain ⟨accounts, haccounts, hall⟩ := run_closed_accounts ctx start whole shutdown
  obtain ⟨accounts₁, haccounts₁, hbefore⟩ := run_closed_accounts ctx start first (.ok ())
  obtain ⟨accounts₂, haccounts₂, hafter⟩ :=
    run_closed_accounts { ctx with clock } start' second shutdown
  have hlines : Framing.linesAfter ctx.limit [] whole.flatten =
      Framing.linesAfter ctx.limit [] first.flatten ++
        Framing.linesAfter ctx.limit [] second.flatten := by
    rw [hwhole, linesAfter_newline ctx.limit hfirst]
  have hcount : accounts₁.length = Framing.lineCount first.flatten := by
    rw [← haccounts₁.length_eq, Framing.length_linesAfter ctx.limit List.not_mem_nil,
      List.nil_append]
  -- The accounts of the two parts are accounts of the whole stream, and it has no others.
  obtain rfl : accounts = accounts₁ ++ accounts₂ := by
    rw [hlines] at haccounts
    exact accounts_unique haccounts (List.rel_append haccounts₁ haccounts₂)
  have hshutdown : (shutdownNote shutdown).map
      (Log.Record.renumber (Framing.lineCount first.flatten)) = shutdownNote shutdown := by
    cases shutdown <;> rfl
  dsimp only
  rw [hall, hbefore, hafter, hlines]
  refine ⟨List.filterMap_append, ?_, ?_⟩
  · rw [tallyOf_append]
  · have hsecond : recordsFrom (1 + accounts₁.length) accounts₂ =
        (recordsFrom 1 accounts₂).map (.renumber (Framing.lineCount first.flatten)) := by
      rw [hcount, Nat.add_comm, recordsFrom_add haccounts₂]
    rw [recordsFrom_append, hsecond, List.map_append, hshutdown, List.append_assoc]
    exact congrArg (· ++ _) (List.append_nil _).symm

/-- An event, a line that is too long and one that is no text at all. -/
def hostileLines : List Bytes :=
  [ Utf8.encode (Event.line ⟨0, .system .sleep⟩),
    List.replicate 90 0x7B ++ [Ascii.newline, 0xFF, 0x22, 0x5B, Ascii.newline] ]

/-- An event after the last line feed of these lines, the first part of it in the same chunk. -/
def straddling : List Bytes :=
  let event := Utf8.encode (Event.line ⟨0, .trackpad .move 1 0⟩)
  [hostileLines.flatten ++ event.take 20, event.drop 20]

/-- The backend refuses both events, the second one on the fourth line. -/
theorem run_afterNewline_straddling :
    let r := (run ⟨Injection.failing, 80, fun _ => 0⟩ [] straddling .closed (.ok ())).2
    Injection.Steady Injection.failing ∧ Injection.Unnumbered Injection.failing ∧
      hostileLines.flatten.getLast? = some Ascii.newline ∧
      r.2.calls = [.system .sleep, .trackpad .move 1 0] ∧
      r.1 = ⟨{ rejected := 4 }, .peerClosed⟩ ∧
      r.2.log.getLast? = some
        ⟨.warn, "message rejected: injection failed: platform error: mock failure",
          [("line", .count 4)]⟩ := by
  have hends : hostileLines.flatten.getLast? = some Ascii.newline := by decide +kernel
  have hwhole : straddling.flatten =
      hostileLines.flatten ++ [Utf8.encode (Event.line ⟨0, .trackpad .move 1 0⟩)].flatten := by
    decide +kernel
  obtain ⟨hcalls, hsummary, hlog⟩ := run_afterNewline ⟨Injection.failing, 80, fun _ => 0⟩ [] []
    (fun _ => 0) (.ok ()) (.inr hends) hwhole
  exact ⟨inferInstance, inferInstance, hends, hcalls.trans (by decide +kernel),
    hsummary.trans (by decide +kernel), (congrArg List.getLast? hlog).trans (by decide +kernel)⟩

end Connection

end RemoteInput
