import RemoteInput.Event.Encode
import RemoteInput.Proofs.Moves

/-!
# A failure does not act on an unfinished line

The script of a session with one connection delivers a stream, in the chunks of
its deliveries.  As long as the connection is open, it stands where the bytes so
far take it (`Reads`).  When it ends it has done what `Connection.run` does with
these bytes (`Ends`).  It is alone in its session, so it settles what becomes of the
session as well: nothing that happens later changes anything (`Lone.run_settled`).

The connection fails when a read does or when the silence reaches the read
timeout (`Interrupts`).  It then has done exactly what it does when the peer
closes the stream after the last line feed (`run_interrupted`).
-/

namespace RemoteInput.Session

variable {σ : Type}

/-! ## One connection -/

/-- Whether a move that goes on from other things took in a stream which is not over. -/
structure Move.Reads (setup : Setup σ) (start : σ) (before : Trace) (stream : Bytes)
    (m : Move σ) : Prop where
  backend : m.backend = (Connection.progress setup.context start stream).backend
  state : m.link.state = (Connection.progress setup.context start stream).state
  trace : before ++ m.trace = (Connection.progress setup.context start stream).trace
  shutdowns : m.link.shutdowns = 0
  summary : m.link.summary = none

/-- Whether a move that goes on from other things took in a stream and its end. -/
structure Move.Ends (setup : Setup σ) (start : σ) (before : Trace) (stream : Bytes)
    (ending : Connection.StreamEnd) (m : Move σ) : Prop where
  run : ∃ summary, m.link.summary = some summary ∧
    Connection.run setup.context start [stream] ending m.link.shutdown =
      (m.backend, summary, before ++ m.trace)
  shutdowns : m.link.shutdowns = 1

namespace Move.Reads

variable {setup : Setup σ} {start : σ} {before : Trace} {stream : Bytes} {m : Move σ}

theorem isOpen (h : m.Reads setup start before stream) : m.link.isOpen = true := by
  rw [Link.isOpen, h.summary]
  rfl

theorem receive (h : m.Reads setup start before stream) (now : Nat) (data : Bytes) :
    (m.receive setup now data).Reads setup start before (stream ++ data) := by
  unfold Move.receive
  cases data with
  | nil => simpa using h
  | cons b data =>
      have hprogress :=
        Connection.progress_append setup.context start stream (b :: data)
      rw [Connection.Progress.andThen, ← h.backend, ← h.state, ← h.trace] at hprogress
      exact ⟨by rw [hprogress]; rfl, by rw [hprogress]; rfl,
        by rw [hprogress, Trace.append_assoc]; rfl, h.shutdowns, h.summary⟩

theorem finish (h : m.Reads setup start before stream) (ending : Connection.StreamEnd) :
    (m.finish setup ending).Ends setup start before stream ending := by
  refine ⟨⟨_, rfl, ?_⟩, by simp [Move.finish, h.shutdowns]⟩
  unfold Connection.run
  rw [Connection.receiveAll_eq_progress, List.flatten_singleton]
  simp only [← h.backend, ← h.state, ← h.trace, Trace.append_assoc]
  rfl

/-- A wait that is too long ends the connection, and any other leaves it as it is. -/
theorem expire (h : m.Reads setup start before stream) (now : Nat) :
    (∃ limit, setup.readTimeout = some limit ∧ limit.millis ≤ now - m.link.waitingSince ∧
        (m.expire setup now).Ends setup start before stream (.failed (.readTimeout limit))) ∨
      ((∀ limit, setup.readTimeout = some limit → now - m.link.waitingSince < limit.millis) ∧
        (m.expire setup now).Reads setup start before stream) := by
  rw [Move.expire_eq_settle]
  cases hexpiry : expiry? setup.readTimeout now m.link.waitingSince with
  | some ending =>
      obtain ⟨limit, hlimit, hwait, rfl⟩ := expiry?_eq_some.mp hexpiry
      exact .inl ⟨limit, hlimit, hwait, h.finish _⟩
  | none =>
      refine .inr ⟨fun limit hlimit => ?_, h⟩
      exact Nat.lt_of_not_le (expiry?_eq_none.mp hexpiry limit hlimit)

/-- What a delivery to an open connection comes to. -/
theorem deliver (h : m.Reads setup start before stream) (now : Nat) (d : Delivery) :
    (∃ error, d.error = some error ∧
        (m.deliver setup now d).Ends setup start before (stream ++ d.data) (.failed (.io error))) ∨
      (d.error = none ∧ d.close = true ∧
        (m.deliver setup now d).Ends setup start before (stream ++ d.data) .closed) ∨
      (d.error = none ∧ d.close = false ∧
        ((∃ limit, setup.readTimeout = some limit ∧
            (m.deliver setup now d).Ends setup start before (stream ++ d.data)
              (.failed (.readTimeout limit))) ∨
          ((∀ limit, setup.readTimeout = some limit → 0 < limit.millis) ∧
            (m.deliver setup now d).Reads setup start before (stream ++ d.data)))) := by
  have hready : Move.Reads setup start before stream { m with link := { m.link with
      shutdownFails := m.link.shutdownFails || d.failShutdown } } :=
    ⟨h.backend, h.state, h.trace, h.shutdowns, h.summary⟩
  have hread := hready.receive now d.data
  unfold Move.deliver
  cases d.error with
  | some error => exact .inl ⟨error, rfl, hread.finish _⟩
  | none =>
      cases d.close with
      | true => exact .inr (.inl ⟨rfl, rfl, hread.finish _⟩)
      | false =>
          refine .inr (.inr ⟨rfl, rfl, ?_⟩)
          obtain ⟨limit, hlimit, -, hends⟩ | ⟨hwait, hreads⟩ := hread.expire now
          · exact .inl ⟨limit, hlimit, hends⟩
          · exact .inr ⟨fun limit hlimit => Nat.zero_lt_of_lt (hwait limit hlimit), hreads⟩

end Move.Reads

/-! ## A session of one connection -/

/-- Whether a session of one connection, in which some things were done, took in a stream which is
not over. -/
structure Reads (setup : Setup σ) (start : σ) (id : Nat) (stream : Bytes) (done : Trace)
    (s : Session σ) : Prop where
  links : s.links = [] ∨ s.links = [(id, s.link id)]
  move : Move.Reads setup start done stream { backend := s.backend, link := s.link id }

/-- Whether a session of one connection, in which some things were done, took in a stream and its
end. -/
structure Ends (setup : Setup σ) (start : σ) (id : Nat) (stream : Bytes)
    (ending : Connection.StreamEnd) (done : Trace) (s : Session σ) : Prop where
  links : s.links = [(id, s.link id)]
  move : Move.Ends setup start done stream ending { backend := s.backend, link := s.link id }

variable {setup : Setup σ} {start : σ} {id : Nat} {stream : Bytes} {done : Trace} {s : Session σ}
  {m : Move σ} {ending : Connection.StreamEnd}

theorem link_single {l : Link} (h : s.links = [(id, l)]) : s.link id = l := by
  simp [link, h, Links.get?]

/-- A session is where the move of its connection took it. -/
theorem Move.Reads.session (h : m.Reads setup start done stream) {report : Report}
    (hlinks : s.links = [(id, m.link)]) (hbackend : s.backend = m.backend)
    (hreport : report.trace = m.trace) : s.Reads setup start id stream (done ++ report.trace) := by
  have hlink := link_single hlinks
  exact ⟨.inr (hlink.symm ▸ hlinks), by rw [hlink, hbackend, hreport]; exact
    ⟨h.backend, h.state, (Trace.append_empty _).trans h.trace, h.shutdowns, h.summary⟩⟩

theorem Move.Ends.session (h : m.Ends setup start done stream ending) {report : Report}
    (hlinks : s.links = [(id, m.link)]) (hbackend : s.backend = m.backend)
    (hreport : report.trace = m.trace) :
    s.Ends setup start id stream ending (done ++ report.trace) := by
  have hlink := link_single hlinks
  exact ⟨hlink.symm ▸ hlinks, by rw [hlink, hbackend, hreport]; exact
    ⟨by simpa using h.run, h.shutdowns⟩⟩

/-- What makes the open connection of a session fail in a step. -/
inductive Interrupts (setup : Setup σ) (s : Session σ) (id : Nat) :
    Step → ConnectionError → Prop where
  /-- The read after the data of the step fails. -/
  | error {d : Delivery} {error : IoError} (h : d.error = some error) :
    Interrupts setup s id (.deliver id d) (.io error)
  /-- The silence of a connection that has started reaches the timeout. -/
  | silence {millis : Nat} {limit : Duration} (hlimit : setup.readTimeout = some limit)
    (hstarted : (s.links.get? id).isSome = true)
    (hwait : limit.millis ≤ s.now + millis - (s.link id).waitingSince) :
    Interrupts setup s id (.advance millis) (.readTimeout limit)
  /-- The stream goes on, but no wait is allowed at all. -/
  | atOnce {d : Delivery} {limit : Duration} (hlimit : setup.readTimeout = some limit)
    (hzero : limit.millis = 0) (herror : d.error = none) (hclose : d.close = false) :
    Interrupts setup s id (.deliver id d) (.readTimeout limit)

/-- The connection of a session that is still read is the only one. -/
theorem Reads.lone (h : s.Reads setup start id stream done) : s.Lone id := by
  obtain hnone | hone := h.links
  · exact ⟨hnone ▸ .nil, by rw [hnone]; rfl⟩
  · exact .of_links hone

/-- Before its connection starts, nothing happens in a session when the clock moves. -/
theorem Reads.advance_none (h : s.Reads setup start id stream done) (hnone : s.links = [])
    (millis : Nat) :
    (s.advance setup millis).1.Reads setup start id stream done ∧
      (s.advance setup millis).2 = {} := by
  have hlink : s.link id = { waitingSince := s.now } := by simp [link, hnone, Links.get?]
  have hmove := h.move
  rw [hlink] at hmove
  unfold advance
  dsimp only
  rw [hnone, expireAll]
  exact ⟨⟨.inl rfl, ⟨hmove.backend, hmove.state, hmove.trace, rfl, rfl⟩⟩, rfl⟩

/-- After a step a connection goes on reading, or it has ended. -/
theorem Reads.step (h : s.Reads setup start id stream done) {step : Step}
    (hstep : step.concerns id = true) :
    (s.step setup step).1.Reads setup start id (stream ++ step.data)
        (done ++ (s.step setup step).2.trace) ∨
      ∃ ending, (s.step setup step).1.Ends setup start id (stream ++ step.data) ending
        (done ++ (s.step setup step).2.trace) := by
  cases step with
  | deliver other d =>
      obtain rfl : other = id := beq_iff_eq.mp hstep
      obtain ⟨hlinks, hbackend, htrace⟩ :=
        h.lone.step_moves hstep (moveOf?_deliver h.move.isOpen d)
      obtain ⟨error, -, hends⟩ | ⟨-, -, hends⟩ | ⟨-, -, ⟨limit, -, hends⟩ | ⟨-, hreads⟩⟩ :=
        h.move.deliver s.now d
      · exact .inr ⟨_, hends.session hlinks hbackend htrace⟩
      · exact .inr ⟨_, hends.session hlinks hbackend htrace⟩
      · exact .inr ⟨_, hends.session hlinks hbackend htrace⟩
      · exact .inl (hreads.session hlinks hbackend htrace)
  | advance millis =>
      rw [Step.data, List.append_nil]
      obtain hnone | hone := h.links
      · obtain ⟨hreads, hreport⟩ := h.advance_none hnone millis
        unfold Session.step
        dsimp only
        rw [hreport]
        exact .inl ((Trace.append_empty done).symm ▸ hreads)
      · have hlink : s.links.get? id = some (s.link id) := by
          rw [hone]
          simp [Links.get?]
        obtain ⟨hlinks, hbackend, htrace⟩ :=
          h.lone.step_moves hstep (moveOf?_advance hlink h.move.isOpen millis)
        obtain ⟨limit, -, -, hends⟩ | ⟨-, hreads⟩ := h.move.expire (s.now + millis)
        · exact .inr ⟨_, hends.session hlinks hbackend htrace⟩
        · exact .inl (hreads.session hlinks hbackend htrace)

/-- What interrupts an open connection ends it. -/
theorem Reads.interrupted (h : s.Reads setup start id stream done) {step : Step}
    {error : ConnectionError} (hstep : Interrupts setup s id step error) :
    (s.step setup step).1.Ends setup start id (stream ++ step.data) (.failed error)
      (done ++ (s.step setup step).2.trace) := by
  cases hstep with
  | @error d error herror =>
      obtain ⟨hlinks, hbackend, htrace⟩ :=
        h.lone.step_moves (Step.concerns_deliver id d) (moveOf?_deliver h.move.isOpen d)
      obtain ⟨error', herror', hends⟩ | ⟨hnone, -⟩ | ⟨hnone, -⟩ := h.move.deliver s.now d
      · obtain rfl := Option.some.inj (herror.symm.trans herror')
        exact hends.session hlinks hbackend htrace
      · cases herror.symm.trans hnone
      · cases herror.symm.trans hnone
  | @silence millis limit hlimit hstarted hwait =>
      obtain ⟨link, hlink⟩ := Option.isSome_iff_exists.mp hstarted
      obtain rfl := link_eq hlink
      obtain ⟨hlinks, hbackend, htrace⟩ :=
        h.lone.step_moves rfl (moveOf?_advance hlink h.move.isOpen millis)
      rw [Step.data, List.append_nil]
      obtain ⟨limit', hlimit', -, hends⟩ | ⟨hshort, -⟩ := h.move.expire (s.now + millis)
      · obtain rfl := Option.some.inj (hlimit.symm.trans hlimit')
        exact hends.session hlinks hbackend htrace
      · exact absurd hwait (Nat.not_le_of_lt (hshort limit hlimit))
  | @atOnce d limit hlimit hzero herror hclose =>
      obtain ⟨hlinks, hbackend, htrace⟩ :=
        h.lone.step_moves (Step.concerns_deliver id d) (moveOf?_deliver h.move.isOpen d)
      obtain ⟨error, herror', -⟩ | ⟨-, hclose', -⟩ | ⟨-, -, hwait⟩ := h.move.deliver s.now d
      · cases herror.symm.trans herror'
      · cases hclose.symm.trans hclose'
      · obtain ⟨limit', hlimit', hends⟩ | ⟨hshort, -⟩ := hwait
        · obtain rfl := Option.some.inj (hlimit.symm.trans hlimit')
          exact hends.session hlinks hbackend htrace
        · exact absurd (hshort limit hlimit) (by omega)

/-! ## Whole scripts -/

namespace Ends

theorem isOpen (h : s.Ends setup start id stream ending done) : (s.link id).isOpen = false := by
  obtain ⟨summary, hsummary, -⟩ := h.move.run
  rw [Link.isOpen, hsummary]
  rfl

theorem get? (h : s.Ends setup start id stream ending done) :
    s.links.get? id = some (s.link id) := get?_of_ended h.isOpen

theorem lone (h : s.Ends setup start id stream ending done) : s.Lone id := .of_links h.links

end Ends

/-- A connection that is still open has taken in the bytes of the script. -/
theorem Reads.run (h : s.Reads setup start id stream done) {steps : List Step}
    (hsteps : ∀ step ∈ steps, step.concerns id = true)
    (hopen : ((last s (s.run setup steps)).link id).isOpen = true) :
    (last s (s.run setup steps)).Reads setup start id (stream ++ received steps)
      (done ++ trace (s.run setup steps)) := by
  induction steps generalizing s stream done with
  | nil =>
      show s.Reads setup start id (stream ++ []) (done ++ {})
      rwa [List.append_nil, Trace.append_empty]
  | cons step steps ih =>
      obtain ⟨hstep, hrest⟩ := List.forall_mem_cons.mp hsteps
      rw [run_cons, last_cons] at hopen ⊢
      rw [trace, ← Trace.append_assoc, received, List.flatMap_cons, ← List.append_assoc]
      obtain hreads | ⟨ending, hends⟩ := h.step hstep
      · exact ih hreads hrest hopen
      · -- A connection that ends before the end of the script is not open there.
        obtain ⟨hlink, -⟩ := run_settled setup hends.lone.ordered hends.get? hends.isOpen steps
        rw [link_eq hlink, hends.isOpen] at hopen
        cases hopen

theorem Reads.initial (setup : Setup σ) (start : σ) (id : Nat) :
    (Session.initial start).Reads setup start id [] {} := by
  refine ⟨.inl rfl, ?_⟩
  have hnothing := Connection.progress_nil setup.context start
  exact ⟨by rw [hnothing]; rfl, by rw [hnothing]; rfl, by rw [hnothing]; rfl, rfl, rfl⟩

/-- However the bytes of a stream arrive, if the connection then fails, it has done what it does
with the stream cut after its last line feed when the peer closes it there.  The backend is in the
same state, and the calls, the counts and the records are the same.  Only the end differs.  The line
that did not end plays no part, and nothing that happens later does. -/
theorem run_interrupted (setup : Setup σ) (start : σ) (id : Nat) (whole : List Bytes)
    {before after : List Step} {step : Step} {error : ConnectionError}
    (hsteps : ∀ step' ∈ before ++ step :: after, step'.concerns id = true)
    (hopen : ((last (initial start) ((initial start).run setup before)).link id).isOpen = true)
    (hstep :
      Interrupts setup (last (initial start) ((initial start).run setup before)) id step error)
    (hwhole : whole.flatten = Framing.wholeLines (received (before ++ [step]))) :
    let rs := (initial start).run setup (before ++ step :: after)
    let s := last (initial start) rs
    let closed := Connection.run setup.context start whole .closed (s.link id).shutdown
    s.links = [(id, s.link id)] ∧ s.backend = closed.1 ∧
      (s.link id).summary = some { closed.2.1 with ending := .failed error } ∧
      (s.link id).shutdowns = 1 ∧ trace rs = closed.2.2 := by
  obtain ⟨hbefore, hrest⟩ := List.forall_mem_append.mp hsteps
  obtain ⟨-, hafter⟩ := List.forall_mem_cons.mp hrest
  dsimp only
  have hreads := (Reads.initial setup start id).run hbefore hopen
  have hends := hreads.interrupted hstep
  obtain ⟨hlinks, hbackend, htrace⟩ := hends.lone.run_settled setup hends.get? hends.isOpen hafter
  rw [run_append, run_cons, last_append, last_cons, trace_append, trace, htrace,
    link_single (hlinks.trans hends.links), hbackend, hlinks]
  obtain ⟨⟨summary, hsummary, hrun⟩, hshutdowns⟩ := hends.move
  have hstream : ([] ++ received before ++ step.data : Bytes) = received (before ++ [step]) := by
    simp [received]
  have hflatten : whole.flatten = Framing.wholeLines
      [([] ++ received before ++ step.data : Bytes)].flatten := by
    rw [hwhole, hstream, List.flatten_singleton]
  rw [Connection.run_failed setup.context start error _ hflatten] at hrun
  simp only [Prod.mk.injEq] at hrun
  obtain ⟨hstate, htally, hdone⟩ := hrun
  refine ⟨hends.links, hstate.symm, ?_, hshutdowns, ?_⟩
  · rw [htally]
    exact hsummary
  · rw [hdone]
    simp

/-- An event, and a second one of which only the line feed is missing, in two parts with a pause. -/
def pendingEvent : List Step :=
  let move := Utf8.encode (Event.line ⟨0, .trackpad .move 1 0⟩)
  let sleep := Utf8.encode (Event.line ⟨0, .system .sleep⟩)
  [ .deliver 1 { data := move ++ sleep.take 20 },
    .advance 60,
    .deliver 1 { data := (sleep.drop 20).dropLast, failShutdown := true },
    .advance 99 ]

/-- The line feed comes too late. -/
def lateEnd : List Step := [.deliver 1 { data := [Ascii.newline] }]

/-- The second event is not acted on, although it is complete. -/
theorem run_interrupted_pendingEvent :
    let s := last (initial []) ((initial []).run shortSetup (pendingEvent ++ .advance 1 :: lateEnd))
    ((last (initial []) ((initial []).run shortSetup pendingEvent)).link 1).isOpen = true ∧
      Interrupts shortSetup (last (initial []) ((initial []).run shortSetup pendingEvent)) 1
        (.advance 1) (.readTimeout ⟨100⟩) ∧
      s.backend = [.trackpad .move 1 0] ∧
      (s.link 1).summary = some ⟨{ processed := 1 }, .failed (.readTimeout ⟨100⟩)⟩ := by
  have hsteps : ∀ step ∈ pendingEvent ++ .advance 1 :: lateEnd, step.concerns 1 = true := by
    decide +kernel
  have hopen :
      ((last (initial []) ((initial []).run shortSetup pendingEvent)).link 1).isOpen = true := by
    decide +kernel
  have hstep : Interrupts shortSetup (last (initial []) ((initial []).run shortSetup pendingEvent))
      1 (.advance 1) (.readTimeout ⟨100⟩) :=
    .silence rfl (by decide +kernel) (by decide +kernel)
  obtain ⟨-, hbackend, hsummary, -⟩ := run_interrupted shortSetup [] 1
    [Utf8.encode (Event.line ⟨0, .trackpad .move 1 0⟩)] hsteps hopen hstep (by decide +kernel)
  exact ⟨hopen, hstep, hbackend.trans (by decide +kernel), hsummary.trans (by decide +kernel)⟩

/-- A line past the limit that an error interrupts is not counted either. -/
example :
    ((last (initial []) ((initial []).run shortSetup
      [ .deliver 1 { data := List.replicate 3 Ascii.newline ++ List.replicate 90 0x7B },
        .deliver 1 { data := [0x7B], error := some shutdownError } ])).link 1).summary =
      some ⟨{ skipped := 3 }, .failed (.io shutdownError)⟩ := by decide +kernel

end RemoteInput.Session
