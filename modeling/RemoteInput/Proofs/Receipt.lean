import RemoteInput.Proofs.Defects
import RemoteInput.Proofs.Discretion

/-!
# The time of receipt

The clock is asked once for each message, whether the message says its own time or
not.  What it answers shows in one place only: in the timestamp of an event whose
message says none (`decode_dated`, `decode_undated`).  It does not decide what is
refused, and for what (`decode_eq_error`).

That a time was missing is noted of every message of a known kind, also if it is
refused for something that is looked at later (`decode_defaulted`).

A backend is handed an input without its time.  So a line comes to the same under
two clocks (`Work.handle_clock`), and so does a connection, down to the state of its
backend (`run_clock`).  Its log has one note for each of its lines whose message says
no time (`count_run`).
-/

namespace RemoteInput

/-! ## One message -/

/-- The time that a message says, whatever is in its place. -/
def Json.timestamp? : Json → Option Json
  | .object ms => Members.get? ms "timestamp"
  | _ => none

/-- Whether a JSON value is an object of a known kind that says no time. -/
def Json.isUndated : Json → Bool
  | .object ms =>
    match Members.get? ms "event_type" with
    | some (.string tag) =>
      (Schema.requirements.map Prod.fst).contains tag && (Members.get? ms "timestamp").isNone
    | _ => false
  | _ => false

/-- The tags of the known kinds are their wire names. -/
theorem Schema.mem_tags {tag : String} :
    tag ∈ Schema.requirements.map Prod.fst ↔ ∃ kind : EventKind, tag = wireName kind := by
  constructor
  · intro h
    obtain ⟨⟨_, asked⟩, hasked, rfl⟩ := List.mem_map.mp h
    obtain ⟨kind, -, htag, -⟩ := kind_of_mem_requirements hasked
    exact ⟨kind, htag⟩
  · rintro ⟨kind, rfl⟩
    obtain ⟨asked, hasked⟩ := exists_asked kind
    exact List.mem_map_of_mem hasked

/-- What is undated is an object of a known kind without a time. -/
theorem Json.isUndated_object {ms : Json.Members} :
    (Json.object ms).isUndated = true ↔
      (∃ kind, Decode.kind ms = .ok kind) ∧ ms.get? "timestamp" = none := by
  simp only [Decode.kind_eq_ok, isUndated]
  cases hget : ms.get? "event_type" with
  | none => simp
  | some value =>
      cases value with
      | null | boolean | number | array | object => simp
      | string tag => simp [← Schema.mem_tags]

/-- The time of receipt stands in for a time that an object of a known kind does not say. -/
theorem decode_defaulted (value : Json) (time : Float) :
    (Event.decode value time).defaulted = value.isUndated := by
  cases value with
  | null | boolean | number | string | array => rfl
  | object ms =>
      rw [Bool.eq_iff_iff, Json.isUndated_object, Event.decode]
      cases Decode.kind ms with
      | error e => simp
      | ok kind =>
          cases Json.Members.get? ms "timestamp" with
          | none => simp
          | some stamp => cases stamp <;> simp

/-- A message that says a time is read the same whenever it is received. -/
theorem decode_dated {value stamp : Json} (h : value.timestamp? = some stamp)
    (time time' : Float) : Event.decode value time = Event.decode value time' := by
  cases value with
  | null | boolean | number | string | array => rfl
  | object ms =>
      have hget : Json.Members.get? ms "timestamp" = some stamp := h
      rw [Event.decode, Event.decode, hget]
      cases stamp <;> rfl

/-- A message that says no time happens when it is received, and is the same input whenever that
is. -/
theorem decode_undated {value : Json} (h : value.timestamp? = none) (time time' : Float)
    {event : Event} :
    (Event.decode value time).result = .ok event ↔
      event.timestamp = time ∧
        (Event.decode value time').result = .ok { event with timestamp := time' } := by
  cases value with
  | null | boolean | number | string | array => simp [Event.decode]
  | object ms =>
      have hget : Json.Members.get? ms "timestamp" = none := h
      simp only [decode_object_eq_ok, Schema.IsNumber, hget, reduceCtorEq, false_or, true_and]
      constructor
      · rintro ⟨kind, hkind, htime, hinput⟩
        exact ⟨htime, kind, hkind, hinput⟩
      · rintro ⟨htime, kind, hkind, hinput⟩
        exact ⟨kind, hkind, htime, hinput⟩

/-! ## One line -/

/-- Whether a line holds an object of a known kind that says no time. -/
def Framing.Line.isUndated : Framing.Line → Bool
  | .tooLong => false
  | .text bytes =>
    match Json.read bytes with
    | .ok value => value.isUndated
    | .error _ => false

theorem decodeLine_defaulted (bytes : Bytes) (time : Float) :
    (Event.decodeLine bytes time).defaulted = (Framing.Line.text bytes).isUndated := by
  rw [Event.decodeLine, Framing.Line.isUndated]
  cases Json.read bytes with
  | error e => rfl
  | ok value => exact decode_defaulted value time

theorem isUndated_of_blank {bytes : Bytes} (h : bytes.all Ascii.isBlank = true) :
    (Framing.Line.text bytes).isUndated = false := by
  rw [Framing.Line.isUndated, Json.read_blank h]

namespace Connection

variable {σ : Type}

theorem Work.dispatch_congr (backend : Injection.Backend σ) (w : Work σ) {event event' : Event}
    (h : event.input = event'.input) : w.dispatch backend event = w.dispatch backend event' := by
  unfold Work.dispatch Injection.Backend.dispatch Event.kind
  rw [h]

theorem Work.process_clock (backend : Injection.Backend σ) (time time' : Float) (w : Work σ)
    (bytes : Bytes) : w.process backend time bytes = w.process backend time' bytes := by
  obtain ⟨hdefaulted, hinput⟩ := decodeLine_sameButTime bytes time time'
  simp only [Work.process, hdefaulted]
  obtain ⟨e, he, he'⟩ | ⟨event, event', hevent, hevent', hsame⟩ := map_eq_map hinput
  · rw [he, he']
  · rw [hevent, hevent']
    exact Work.dispatch_congr backend _ hsame

/-- A line comes to the same under two clocks. -/
theorem Work.handle_clock (backend : Injection.Backend σ) (limit : UInt64)
    (clock clock' : Nat → Float) :
    Work.handle backend limit clock = Work.handle backend limit clock' := by
  funext w line
  cases line with
  | tooLong => rfl
  | text bytes =>
      simp only [Work.handle, Work.process_clock backend (clock _) (clock' (w.lines + 1))]

/-! ## A whole connection -/

/-- A connection comes to the same under two clocks. -/
theorem run_clock (backend : Injection.Backend σ) (limit : UInt64) (clock clock' : Nat → Float)
    (start : σ) (chunks : List Bytes) (ending : StreamEnd) (shutdown : Except IoError Unit) :
    run ⟨backend, limit, clock⟩ start chunks ending shutdown =
      run ⟨backend, limit, clock'⟩ start chunks ending shutdown := by
  have hclosed : ∀ chunks, run ⟨backend, limit, clock⟩ start chunks .closed shutdown =
      run ⟨backend, limit, clock'⟩ start chunks .closed shutdown := by
    intro chunks
    rw [run_closed, run_closed]
    simp only [handleLines, Work.handle_clock backend limit clock clock']
  cases ending with
  | closed => exact hclosed chunks
  | failed e =>
      rw [run_failed ⟨backend, limit, clock⟩ start e shutdown List.flatten_singleton,
        run_failed ⟨backend, limit, clock'⟩ start e shutdown List.flatten_singleton, hclosed]

end Connection

/-! ## Notes of a time that is missing -/

namespace Injection

/-- A backend whose own records are no notes of a missing time. -/
class Timeless {σ : Type} (backend : Backend σ) : Prop where
  notMem_log (s : σ) (i : Input) : Connection.defaultedRecord ∉ (backend.inject s i).log

instance : Timeless recording := ⟨fun _ _ => List.not_mem_nil⟩

instance : Timeless failing := ⟨fun _ _ => List.not_mem_nil⟩

instance : Timeless logging where
  notMem_log _ i h := by
    unfold logging at h
    cases hrecord : record i with
    | ok r =>
        simp only [hrecord, List.mem_singleton] at h
        cases h ▸ (record_eq_ok hrecord).1
    | error e => simp [hrecord] at h

end Injection

namespace Connection

variable {σ : Type}

/-- A line is noted once if its message says no time, and not at all otherwise. -/
theorem AccountOf.count_records {backend : Injection.Backend σ} [Injection.Timeless backend]
    {limit : UInt64} {line : Framing.Line} {a : Account} (h : AccountOf backend limit line a)
    (number : Nat) :
    (a.records number).count defaultedRecord = if line.isUndated then 1 else 0 := by
  have htime : ∀ defaulted, (timeNote defaulted).count defaultedRecord =
      if defaulted then 1 else 0 := by decide
  have hverdict : (a.verdict.record? number).toList.count defaultedRecord = 0 := by
    cases a.verdict <;> simp [Verdict.record?, defaultedRecord]
  rw [Account.records, List.count_append, hverdict, Nat.add_zero]
  cases h with
  | tooLong => rfl
  | blank hblank =>
      rw [isUndated_of_blank hblank]
      rfl
  | malformed hnot hdecode =>
      rw [← decodeLine_defaulted _ _, hdecode, htime]
  | @answered bytes time defaulted event state state' result log hnot hdecode hinject =>
      have htimeless : Injection.Timeless backend := inferInstance
      have hlog : log.count defaultedRecord = 0 := by
        have hown := htimeless.notMem_log state event.input
        rw [hinject] at hown
        exact List.count_eq_zero.mpr hown
      rw [← decodeLine_defaulted bytes time, hdecode, List.count_append, htime, hlog, Nat.add_zero]

theorem count_recordsFrom {backend : Injection.Backend σ} [Injection.Timeless backend]
    {limit : UInt64} {lines : List Framing.Line} {accounts : List Account}
    (h : List.Forall₂ (AccountOf backend limit) lines accounts) (first : Nat) :
    (recordsFrom first accounts).count defaultedRecord =
      lines.countP Framing.Line.isUndated := by
  induction h generalizing first with
  | nil => rfl
  | cons ha _ ih =>
      rw [recordsFrom_cons, List.count_append, ha.count_records, ih, List.countP_cons,
        Nat.add_comm]

/-- The log of a connection has a note for each of its lines whose message says no time. -/
theorem count_run (ctx : Context σ) [Injection.Timeless ctx.backend] (start : σ)
    (chunks : List Bytes) (ending : StreamEnd) (shutdown : Except IoError Unit) :
    (run ctx start chunks ending shutdown).2.2.log.count defaultedRecord =
      (handledLines ctx.limit chunks ending).countP Framing.Line.isUndated := by
  have hclosed : ∀ chunks, (run ctx start chunks .closed shutdown).2.2.log.count defaultedRecord =
      (handledLines ctx.limit chunks .closed).countP Framing.Line.isUndated := by
    intro chunks
    obtain ⟨accounts, haccounts, -, hlog⟩ := handleLines_accounts ctx start {}
      (handledLines ctx.limit chunks .closed) .empty
    have hteardown : (teardown shutdown).log.count defaultedRecord = 0 := by
      cases shutdown <;> simp [teardown, shutdownRecord, defaultedRecord]
    simp only [handledLines] at hlog haccounts ⊢
    rw [run_closed]
    simp only [Trace.log_append, List.count_append, hlog, count_recordsFrom haccounts, hteardown,
      Nat.add_zero]
  cases ending with
  | closed => exact hclosed chunks
  | failed e =>
      rw [run_failed ctx start e shutdown List.flatten_singleton]
      exact hclosed [Framing.wholeLines chunks.flatten]

/-- The time of receipt shows only in the timestamp of an event whose message says none.  It plays
no part in what is refused and why, and none in what a connection does: two clocks give the same
calls, counters and records, and the backend is left in the same state.  That a time was missing is
noted of every message of a known kind without one, whatever else is wrong with it. -/
theorem receivedAt_onlyStamps :
    (∀ (value : Json) (time time' : Float),
      (∀ e, (Event.decode value time).result = .error e ↔
          (Event.decode value time').result = .error e) ∧
        (∀ stamp, value.timestamp? = some stamp →
          Event.decode value time = Event.decode value time') ∧
        (value.timestamp? = none → ∀ event, (Event.decode value time).result = .ok event ↔
          event.timestamp = time ∧
            (Event.decode value time').result = .ok { event with timestamp := time' }) ∧
        (Event.decode value time).defaulted = value.isUndated) ∧
      ∀ {σ : Type} (backend : Injection.Backend σ) (limit : UInt64) (clock clock' : Nat → Float)
        (start : σ) (chunks : List Bytes) (ending : StreamEnd) (shutdown : Except IoError Unit),
        run ⟨backend, limit, clock⟩ start chunks ending shutdown =
            run ⟨backend, limit, clock'⟩ start chunks ending shutdown ∧
          (Injection.Timeless backend →
            (run ⟨backend, limit, clock⟩ start chunks ending shutdown).2.2.log.count
                defaultedRecord =
              (handledLines limit chunks ending).countP Framing.Line.isUndated) := by
  refine ⟨fun value time time' => ⟨fun e => ?_, fun stamp h => ?_, fun h event => ?_, ?_⟩, ?_⟩
  · rw [decode_eq_error, decode_eq_error]
  · exact decode_dated h time time'
  · exact decode_undated h time time'
  · exact decode_defaulted value time
  · intro σ backend limit clock clock' start chunks ending shutdown
    exact ⟨run_clock backend limit clock clock' start chunks ending shutdown,
      fun _ => count_run ⟨backend, limit, clock⟩ start chunks ending shutdown⟩

/-- Five lines.  The first two are of known kinds and say no time, and the second one asks for an
action that is none.  The third one says its time.  The fourth one says none, but is of no known
kind.  The last one is no object. -/
def datedAndUndated : List Bytes :=
  [ "\x7b\"event_type\":\"SYSTEM\",\"command\":\"SLEEP\"\x7d",
    "\x7b\"event_type\":\"TRACKPAD\",\"action\":\"HOP\"\x7d",
    "\x7b\"event_type\":\"SYSTEM\",\"command\":\"SLEEP\",\"timestamp\":5\x7d",
    "\x7b\"event_type\":\"SOUND\"\x7d",
    "[]" ].map fun message => Utf8.encode message.toList ++ [Ascii.newline]

/-- The same message at two times, with and without a time of its own, and two clocks for the five
lines.  Two of them are noted. -/
theorem receivedAt_onlyStamps_sleep :
    let undated : Json := .object [("event_type", .string "SYSTEM"), ("command", .string "SLEEP")]
    let dated : Json := .object [("event_type", .string "SYSTEM"), ("command", .string "SLEEP"),
      ("timestamp", .number 5)]
    (Event.decode undated 2).result = .ok ⟨2, .system .sleep⟩ ∧
      Event.decode dated 1 = Event.decode dated 2 ∧
      run ⟨Injection.logging, 100, fun _ => 0⟩ () datedAndUndated .closed (.ok ()) =
        run ⟨Injection.logging, 100, Nat.toFloat⟩ () datedAndUndated .closed (.ok ()) ∧
      (run ⟨Injection.logging, 100, fun _ => 0⟩ () datedAndUndated .closed (.ok ())).2.2.log.count
        defaultedRecord = 2 := by
  intro undated dated
  obtain ⟨-, -, hundated, -⟩ := receivedAt_onlyStamps.1 undated 1 2
  obtain ⟨-, hdated, -, -⟩ := receivedAt_onlyStamps.1 dated 1 2
  obtain ⟨hclock, hcount⟩ := receivedAt_onlyStamps.2 Injection.logging 100 (fun _ => 0) Nat.toFloat
    () datedAndUndated .closed (.ok ())
  exact ⟨((hundated rfl ⟨1, .system .sleep⟩).mp rfl).2, hdated (.number 5) rfl, hclock,
    (hcount inferInstance).trans (by decide +kernel)⟩

end Connection

end RemoteInput
