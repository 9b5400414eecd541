import RemoteInput.Proofs.Accounts

/-!
# Backends that do not remember

A steady backend answers an input in the same way whatever it was handed before.
The recording, the failing and the logging backend are steady.  With such a
backend a connection does the same whatever the state of the backend is, and the
times at which its lines are received play no part in it either
(`handleLines_steady`, `finish_steady`).  For a line admits one account only then
(`AccountOf.unique`).  So what others did to the backend in the meantime does not
show in what a connection does.
-/

namespace RemoteInput

namespace Injection

/-- A backend whose answers do not depend on what it was handed before. -/
class Steady {σ : Type} (backend : Backend σ) : Prop where
  result_congr (s s' : σ) (i : Input) : (backend.inject s i).result = (backend.inject s' i).result
  log_congr (s s' : σ) (i : Input) : (backend.inject s i).log = (backend.inject s' i).log

instance : Steady recording := ⟨fun _ _ _ => rfl, fun _ _ _ => rfl⟩

instance : Steady failing := ⟨fun _ _ _ => rfl, fun _ _ _ => rfl⟩

instance : Steady logging := ⟨fun _ _ _ => rfl, fun _ _ _ => rfl⟩

theorem Backend.after_append {σ : Type} (backend : Backend σ) (state : σ)
    (inputs inputs' : List Input) :
    backend.after state (inputs ++ inputs') = backend.after (backend.after state inputs) inputs' :=
  List.foldl_append

end Injection

namespace Connection

variable {σ : Type}

/-! ## One account for each line -/

theorem decodeLine_unique {bytes : Bytes} {time time' : Float} {defaulted defaulted' : Bool}
    {result result' : Except MessageError Event}
    (h : Event.decodeLine bytes time = ⟨defaulted, result⟩)
    (h' : Event.decodeLine bytes time' = ⟨defaulted', result'⟩) :
    defaulted = defaulted' ∧ result.map Event.input = result'.map Event.input := by
  have hsame := decodeLine_sameButTime bytes time time'
  rw [h, h'] at hsame
  exact ⟨hsame.defaulted, hsame.input⟩

/-- A steady backend leaves no choice of accounts. -/
theorem AccountOf.unique {backend : Injection.Backend σ} [Injection.Steady backend]
    {limit : UInt64} {line : Framing.Line} {a a' : Account} (h : AccountOf backend limit line a)
    (h' : AccountOf backend limit line a') : a = a' := by
  cases h with
  | tooLong =>
      cases h'
      rfl
  | blank hblank =>
      cases h' with
      | blank => rfl
      | malformed hnot => simp [hblank] at hnot
      | answered hnot => simp [hblank] at hnot
  | malformed hnot hdecode =>
      cases h' with
      | blank hblank => simp [hblank] at hnot
      | malformed _ hdecode' =>
          obtain ⟨hdefaulted, hresult⟩ := decodeLine_unique hdecode hdecode'
          rw [hdefaulted, Except.error.inj hresult]
      | answered _ hdecode' => cases (decodeLine_unique hdecode hdecode').2
  | @answered bytes _ _ event state _ _ _ hnot hdecode hinject =>
      cases h' with
      | blank hblank => simp [hblank] at hnot
      | malformed _ hdecode' => cases (decodeLine_unique hdecode hdecode').2
      | @answered _ _ _ event' state' _ _ _ _ hdecode' hinject' =>
          obtain ⟨hdefaulted, hresult⟩ := decodeLine_unique hdecode hdecode'
          have hinput : event.input = event'.input := Except.ok.inj hresult
          have hsteady : Injection.Steady backend := inferInstance
          have hanswer := hsteady.result_congr state state' event.input
          have hlog := hsteady.log_congr state state' event.input
          rw [hinject, hinput, hinject'] at hanswer hlog
          dsimp only at hanswer hlog
          rw [hdefaulted, Event.kind, hinput, ← Event.kind, hanswer, hlog]

/-- Lines have one list of accounts then. -/
theorem accounts_unique {backend : Injection.Backend σ} [Injection.Steady backend]
    {limit : UInt64} {lines : List Framing.Line} {accounts accounts' : List Account}
    (h : List.Forall₂ (AccountOf backend limit) lines accounts)
    (h' : List.Forall₂ (AccountOf backend limit) lines accounts') : accounts = accounts' :=
  List.right_unique_forall₂' (fun _ _ _ ha ha' => ha.unique ha') h h'

/-! ## Parts of a connection -/

/-- Two contexts that differ in the clock at most. -/
structure Context.SameButClock (ctx ctx' : Context σ) : Prop where
  backend : ctx.backend = ctx'.backend
  limit : ctx.limit = ctx'.limit

variable {ctx ctx' : Context σ}

/-- What comes of lines shows nothing of the state of a steady backend and of the clock. -/
theorem handleLines_steady [Injection.Steady ctx.backend] (h : ctx.SameButClock ctx')
    (backend backend' : σ) (state : State) (lines : List Framing.Line) (buffer : Framing.Buffer) :
    (handleLines ctx backend state lines buffer).state =
        (handleLines ctx' backend' state lines buffer).state ∧
      (handleLines ctx backend state lines buffer).trace =
        (handleLines ctx' backend' state lines buffer).trace := by
  have hcalls := (handleLines_calls ctx backend state lines buffer 0).1
  have hcalls' := (handleLines_calls ctx' backend' state lines buffer 0).1
  obtain ⟨accounts, haccounts, hstate, hlog⟩ := handleLines_accounts ctx backend state lines buffer
  obtain ⟨accounts', haccounts', hstate', hlog'⟩ :=
    handleLines_accounts ctx' backend' state lines buffer
  rw [← h.backend, ← h.limit] at haccounts'
  obtain rfl := accounts_unique haccounts haccounts'
  exact ⟨hstate.trans hstate'.symm,
    Trace.ext (hcalls.trans hcalls'.symm) (hlog.trans hlog'.symm)⟩

theorem receive_steady [Injection.Steady ctx.backend] (h : ctx.SameButClock ctx')
    (backend backend' : σ) (state : State) (chunk : Bytes) :
    (receive ctx backend state chunk).state = (receive ctx' backend' state chunk).state ∧
      (receive ctx backend state chunk).trace = (receive ctx' backend' state chunk).trace := by
  unfold receive
  rw [← h.limit]
  exact handleLines_steady h backend backend' state _ _

/-- What is reported at the end shows nothing of the state of a steady backend and of the clock. -/
theorem finish_steady [Injection.Steady ctx.backend] (h : ctx.SameButClock ctx')
    (backend backend' : σ) (state : State) (ending : StreamEnd) (shutdown : Except IoError Unit) :
    (finish ctx backend state ending shutdown).2 =
      (finish ctx' backend' state ending shutdown).2 := by
  cases ending with
  | failed e => rfl
  | closed =>
      obtain ⟨hstate, htrace⟩ := handleLines_steady h backend backend' state
        (state.buffer.close ctx.limit).toList .empty
      unfold finish close
      rw [← h.limit]
      simp only [hstate, htrace]

theorem receiveAll_steady [Injection.Steady ctx.backend] (h : ctx.SameButClock ctx')
    (backend backend' : σ) (state : State) (chunks : List Bytes) :
    (receiveAll ctx backend state chunks).state = (receiveAll ctx' backend' state chunks).state ∧
      (receiveAll ctx backend state chunks).trace =
        (receiveAll ctx' backend' state chunks).trace := by
  induction chunks generalizing backend backend' state with
  | nil => exact ⟨rfl, rfl⟩
  | cons chunk chunks ih =>
      obtain ⟨hstate, htrace⟩ := receive_steady h backend backend' state chunk
      obtain ⟨hstates, htraces⟩ := ih (receive ctx backend state chunk).backend
        (receive ctx' backend' state chunk).backend (receive ctx backend state chunk).state
      rw [hstate] at hstates htraces
      simp only [receiveAll, Progress.andThen, hstate, htrace, hstates, htraces, and_self]

/-- A whole connection shows nothing of the state in which it finds a steady backend and of the
clock. -/
theorem run_steady [Injection.Steady ctx.backend] (h : ctx.SameButClock ctx')
    (backend backend' : σ) (chunks : List Bytes) (ending : StreamEnd)
    (shutdown : Except IoError Unit) :
    (run ctx backend chunks ending shutdown).2 = (run ctx' backend' chunks ending shutdown).2 := by
  obtain ⟨hstate, htrace⟩ := receiveAll_steady h backend backend' {} chunks
  have hfinish := finish_steady h (receiveAll ctx backend {} chunks).backend
    (receiveAll ctx' backend' {} chunks).backend (receiveAll ctx backend {} chunks).state ending
    shutdown
  rw [hstate] at hfinish
  simp only [run, hstate, htrace, hfinish]

/-! ## What the backend is handed -/

/-- Lines move the backend by the calls that they make. -/
theorem handleLines_after (ctx : Context σ) (backend : σ) (state : State)
    (lines : List Framing.Line) (buffer : Framing.Buffer) :
    (handleLines ctx backend state lines buffer).backend =
      ctx.backend.after backend (handleLines ctx backend state lines buffer).trace.calls := by
  obtain ⟨hcalls, hbackend⟩ := handleLines_calls ctx backend state lines buffer 0
  rw [hcalls, hbackend]

theorem receiveAll_after (ctx : Context σ) (backend : σ) (state : State) (chunks : List Bytes) :
    (receiveAll ctx backend state chunks).backend =
      ctx.backend.after backend (receiveAll ctx backend state chunks).trace.calls := by
  induction chunks generalizing backend state with
  | nil => rfl
  | cons chunk chunks ih =>
      have hfirst : (receive ctx backend state chunk).backend =
          ctx.backend.after backend (receive ctx backend state chunk).trace.calls :=
        handleLines_after ..
      simp only [receiveAll, Progress.andThen, Trace.calls_append, Injection.Backend.after_append]
      rw [← hfirst, ← ih]

theorem finish_after (ctx : Context σ) (backend : σ) (state : State) (ending : StreamEnd)
    (shutdown : Except IoError Unit) :
    (finish ctx backend state ending shutdown).1 =
      ctx.backend.after backend (finish ctx backend state ending shutdown).2.2.calls := by
  have hteardown : (teardown shutdown).calls = [] := by cases shutdown <;> rfl
  cases ending with
  | failed e => simp [finish, hteardown, Injection.Backend.after]
  | closed =>
      simp only [finish, Trace.calls_append, hteardown, List.append_nil]
      exact handleLines_after ctx backend state _ _

/-- A connection moves the backend by the calls that it makes. -/
theorem run_after (ctx : Context σ) (backend : σ) (chunks : List Bytes) (ending : StreamEnd)
    (shutdown : Except IoError Unit) :
    (run ctx backend chunks ending shutdown).1 =
      ctx.backend.after backend (run ctx backend chunks ending shutdown).2.2.calls := by
  simp only [run, Trace.calls_append, Injection.Backend.after_append]
  rw [← receiveAll_after, ← finish_after]

end Connection

end RemoteInput
