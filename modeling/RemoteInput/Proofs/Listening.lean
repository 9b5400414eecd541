import RemoteInput.Connection.Listener
import RemoteInput.Injection.Backends
import RemoteInput.Proofs.Steady
import RemoteInput.Proofs.Streams

/-!
# Every peer is served as if it were the first

What a listener makes of a peer is said without the listener: two records stand
around what a connection with just the peer's data does, and its stream is shut
down (`ServedAlone`).  With a steady backend it does not matter in which state the
connection finds the backend and when its lines are received.  So one turn of the
accept loop serves its peer as if no other had been there (`serveOne_alone`), and
by induction on the turns every peer is served so (`accept_alone`).  The waits that
are cut off and the peers that are not accepted change nothing for those that are.

The listener that serves its peers until it is told to stop takes such turns
(`serve_alone`), and so does the one that is started with a configuration
(`run_alone`).
-/

namespace RemoteInput.Listener

open Connection (StreamEnd)

variable {σ : Type}

/-! ## Turns -/

/-- The peer of a turn, if one connects. -/
def Turn.peer? : Turn → Option Peer
  | .connected peer => some peer
  | _ => none

/-- How the stream of a peer ends, if it does. -/
def Peer.ending? (limits : Limits) (peer : Peer) : Option StreamEnd :=
  if peer.silent then limits.readTimeout.map fun limit => .failed (.readTimeout limit)
  else some .closed

/-- What the loop itself reports of a turn before it is stopped. -/
def Turn.record? : Turn → Option Log.Record
  | .refused e => some ⟨.error, s!"accept error: {e.message}", []⟩
  | _ => none

/-! ## One peer -/

/-- What a connection with some data says and does that finds the backend in a state of its own and
has a clock of its own. -/
def ownRun (setup : Setup σ) (fresh : σ) (clock : Nat → Float) (chunks : List Bytes)
    (ending : StreamEnd) : Summary × Trace :=
  (Connection.run ⟨setup.backend, setup.limits.maxLineBytes, clock⟩ fresh chunks ending (.ok ())).2

/-- What a connection did between two records of the listener.  Its stream was shut down, and that
is all. -/
def Served.between (own : Trace) (farewell : Log.Record) : Served :=
  { calls := own.calls
    log := ⟨.info, "connected", []⟩ :: own.log ++ [farewell]
    acts := [.shutdown] }

/-- The last record of a peer that closes its side. -/
def closedRecord (tally : Tally) : Log.Record :=
  ⟨.info, "disconnected",
    [ ("processed", .count tally.processed), ("rejected", .count tally.rejected),
      ("skipped", .count tally.skipped) ]⟩

/-- The last record of a peer that was silent for too long. -/
def silentRecord (limit : Duration) (tally : Tally) : Log.Record :=
  ⟨.warn, s!"disconnected: no data received for {limit.text}",
    [ ("processed", .count tally.processed), ("rejected", .count tally.rejected),
      ("skipped", .count tally.skipped) ]⟩

/-- What a peer brings about that is served alone: what a connection with just its data does,
between two records of the listener. -/
inductive ServedAlone (setup : Setup σ) : Peer → Served → Prop where
  /-- The peer closes its side. -/
  | closed {chunks : List Bytes} {served : Served}
    (h : ∀ fresh clock,
      let own := ownRun setup fresh clock chunks .closed
      served = .between own.2 (closedRecord own.1.tally)) :
    ServedAlone setup ⟨chunks, false⟩ served
  /-- The peer falls silent, and its connection does what it would do with the whole lines alone. -/
  | silent {chunks : List Bytes} {served : Served} {limit : Duration}
    (hlimit : setup.limits.readTimeout = some limit)
    (h : ∀ fresh clock,
      let own := ownRun setup fresh clock chunks (.failed (.readTimeout limit))
      served = .between own.2 (silentRecord limit own.1.tally))
    (hwhole : ∀ fresh clock,
      let own := ownRun setup fresh clock [Framing.wholeLines chunks.flatten] .closed
      served = .between own.2 (silentRecord limit own.1.tally)) :
    ServedAlone setup ⟨chunks, true⟩ served

/-- Nothing of the state in which a connection finds a steady backend shows, and nothing of the
clock. -/
theorem ownRun_congr (setup : Setup σ) [Injection.Steady setup.backend] (fresh fresh' : σ)
    (clock clock' : Nat → Float) (chunks : List Bytes) (ending : StreamEnd) :
    ownRun setup fresh clock chunks ending = ownRun setup fresh' clock' chunks ending := by
  have hclock : Connection.Context.SameButClock
      (⟨setup.backend, setup.limits.maxLineBytes, clock⟩ : Connection.Context σ)
      ⟨setup.backend, setup.limits.maxLineBytes, clock'⟩ := ⟨rfl, rfl⟩
  exact Connection.run_steady hclock fresh fresh' chunks ending (.ok ())

/-- A connection that fails does what it would do with its whole lines alone. -/
theorem ownRun_failed (setup : Setup σ) (fresh : σ) (clock : Nat → Float) (chunks : List Bytes)
    (error : ConnectionError) :
    ownRun setup fresh clock chunks (.failed error) =
      ({ (ownRun setup fresh clock [Framing.wholeLines chunks.flatten] .closed).1 with
          ending := .failed error },
        (ownRun setup fresh clock [Framing.wholeLines chunks.flatten] .closed).2) := by
  have hwhole : [Framing.wholeLines chunks.flatten].flatten = Framing.wholeLines chunks.flatten :=
    List.flatten_singleton
  unfold ownRun
  rw [Connection.run_failed _ fresh error (.ok ()) hwhole]

theorem arrivals_eq {limits : Limits} {peer : Peer} {ending : StreamEnd}
    (h : peer.ending? limits = some ending) :
    peer.arrivals limits = peer.chunks.map .data ++ [.ended ending, .shutDown (.ok ())] := by
  obtain ⟨chunks, silent⟩ := peer
  cases silent with
  | false =>
      cases h
      rfl
  | true =>
      obtain ⟨limit, hlimit, rfl⟩ := Option.map_eq_some_iff.mp h
      simp only [Peer.arrivals, hlimit]

/-- What a peer brings about whose connection ends. -/
theorem serveOne_eq (setup : Setup σ) (number : Nat) (start : σ) {peer : Peer} {ending : StreamEnd}
    (h : peer.ending? setup.limits = some ending) :
    serveOne setup number start peer =
      let own := ownRun setup start (setup.clock number) peer.chunks ending
      (setup.backend.after start own.2.calls, .between own.2 (disconnectedRecord own.1)) := by
  have hafter := Connection.run_after ⟨setup.backend, setup.limits.maxLineBytes, setup.clock number⟩
    start peer.chunks ending (.ok ())
  unfold serveOne
  dsimp only
  rw [arrivals_eq h, Connection.Live.after_ended]
  exact Prod.ext hafter rfl

/-- A peer is served as if it were alone, if its connection ends. -/
theorem serveOne_alone (setup : Setup σ) [Injection.Steady setup.backend] (number : Nat)
    (start : σ) {peer : Peer} {ending : StreamEnd}
    (h : peer.ending? setup.limits = some ending) :
    ServedAlone setup peer (serveOne setup number start peer).2 := by
  rw [serveOne_eq setup number start h]
  obtain ⟨chunks, silent⟩ := peer
  cases silent with
  | false =>
      cases h
      refine .closed fun fresh clock => ?_
      rw [ownRun_congr setup fresh start clock (setup.clock number)]
      rfl
  | true =>
      obtain ⟨limit, hlimit, rfl⟩ := Option.map_eq_some_iff.mp h
      refine .silent hlimit (fun fresh clock => ?_) (fun fresh clock => ?_)
      · rw [ownRun_congr setup fresh start clock (setup.clock number)]
        rfl
      · rw [ownRun_failed, ownRun_congr setup fresh start clock (setup.clock number)]
        rfl

/-! ## Many turns -/

/-- The listener sends nothing to its peers, whether their connections end or not. -/
theorem reply_acceptFrom (setup : Setup σ) (number : Nat) (start : σ) (turns : List Turn) :
    ∀ served ∈ (acceptFrom setup number start turns).2.1, served.reply = [] := by
  induction turns generalizing number start with
  | nil => exact fun served hserved => absurd hserved List.not_mem_nil
  | cons turn turns ih =>
      cases turn with
      | connected peer =>
          intro served hserved
          rcases List.mem_cons.mp hserved with rfl | hserved
          · exact Connection.Live.sent_after ..
          · exact ih (number + 1) _ served hserved
      | idle => exact ih number start
      | refused e => exact ih number start
      | stopped => exact fun served hserved => absurd hserved List.not_mem_nil

/-- Up to the turn that finds the running flag cleared the peers are served one by one, and nothing
after it is. -/
theorem acceptFrom_alone (setup : Setup σ) [Injection.Steady setup.backend] (number : Nat)
    (start : σ) {turns : List Turn} (later : List Turn)
    (hrunning : ∀ turn ∈ turns, turn ≠ .stopped)
    (hends : ∀ peer ∈ turns.filterMap Turn.peer?, (peer.ending? setup.limits).isSome = true) :
    ∃ served, List.Forall₂ (ServedAlone setup) (turns.filterMap Turn.peer?) served ∧
      acceptFrom setup number start (turns ++ .stopped :: later) =
        (setup.backend.after start (served.flatMap Served.calls), served,
          turns.filterMap Turn.record? ++
            [⟨.info, "shutdown flag set; stopping accept loop", []⟩]) := by
  induction turns generalizing number start with
  | nil => exact ⟨[], .nil, rfl⟩
  | cons turn turns ih =>
      have hrest : ∀ turn ∈ turns, turn ≠ .stopped :=
        fun turn hturn => hrunning turn (List.mem_cons_of_mem _ hturn)
      cases turn with
      | connected peer =>
          have hpeer := hends peer (List.mem_cons_self ..)
          obtain ⟨ending, hending⟩ := Option.isSome_iff_exists.mp hpeer
          have hone := serveOne_alone setup number start hending
          have hafter : (serveOne setup number start peer).1 =
              setup.backend.after start (serveOne setup number start peer).2.calls := by
            rw [serveOne_eq setup number start hending]
            rfl
          obtain ⟨served, hserved, haccept⟩ := ih (number + 1)
            (serveOne setup number start peer).1 hrest
            (fun peer hpeer => hends peer (List.mem_cons_of_mem _ hpeer))
          refine ⟨(serveOne setup number start peer).2 :: served, .cons hone hserved, ?_⟩
          rw [List.cons_append, acceptFrom]
          simp only [haccept]
          rw [List.flatMap_cons, Injection.Backend.after_append, ← hafter]
          rfl
      | idle =>
          obtain ⟨served, hserved, haccept⟩ := ih number start hrest hends
          exact ⟨served, hserved, haccept⟩
      | refused e =>
          obtain ⟨served, hserved, haccept⟩ := ih number start hrest hends
          refine ⟨served, hserved, ?_⟩
          rw [List.cons_append, acceptFrom]
          simp only [haccept]
          rfl
      | stopped => exact absurd rfl (hrunning .stopped (List.mem_cons_self ..))

/-- Every peer is served as if it were the first, whatever the peers before it sent and however
their connections ended.  The loop serves each of them once, in order, up to the turn that finds
the running flag cleared, and nothing after it.  It sends nothing to any of them.  It reports the
peers that it could not accept and, once, that it stops. -/
theorem accept_alone (setup : Setup σ) [Injection.Steady setup.backend] (start : σ)
    (turns later : List Turn) (hrunning : ∀ turn ∈ turns, turn ≠ .stopped)
    (hends : ∀ peer ∈ turns.filterMap Turn.peer?, (peer.ending? setup.limits).isSome = true) :
    ∃ served, List.Forall₂ (ServedAlone setup) (turns.filterMap Turn.peer?) served ∧
      (∀ one ∈ served, one.reply = []) ∧
      accept setup start (turns ++ .stopped :: later) =
        (setup.backend.after start (served.flatMap Served.calls), served,
          turns.filterMap Turn.record? ++
            [⟨.info, "shutdown flag set; stopping accept loop", []⟩]) := by
  obtain ⟨served, hserved, haccept⟩ := acceptFrom_alone setup 0 start later hrunning hends
  have hreply := reply_acceptFrom setup 0 start (turns ++ .stopped :: later)
  rw [haccept] at hreply
  exact ⟨served, hserved, hreply, haccept⟩

/-- A peer that sends garbage, one that cannot be accepted, one that falls silent with a message all
but its line feed, and one that sends the same message whole. -/
def hostileTurns : List Turn :=
  let sleep := Utf8.encode (Event.line ⟨0, .system .sleep⟩)
  let move := Utf8.encode (Event.line ⟨0, .trackpad .move 1 0⟩)
  [ .connected ⟨[List.replicate 90 0x7B, [Ascii.newline, 0xFF]], false⟩,
    .refused ⟨.other, "Too many open files (os error 24)"⟩,
    .connected ⟨[sleep ++ move.dropLast], true⟩,
    .idle,
    .connected ⟨[move], false⟩ ]

/-- The garbage keeps nobody from being served, and the unfinished message is not acted on. -/
theorem accept_alone_hostile :
    let setup : Setup (List Input) := ⟨Injection.recording, ⟨80, some ⟨1500⟩⟩, fun _ _ => 0⟩
    (∀ turn ∈ hostileTurns, turn ≠ .stopped) ∧
      (∀ peer ∈ hostileTurns.filterMap Turn.peer?, (peer.ending? setup.limits).isSome = true) ∧
      (accept setup [] (hostileTurns ++ [.stopped])).2.2 =
        [ ⟨.error, "accept error: Too many open files (os error 24)", []⟩,
          ⟨.info, "shutdown flag set; stopping accept loop", []⟩ ] ∧
      ∃ garbage silent whole,
        (accept setup [] (hostileTurns ++ [.stopped])).2.1 = [garbage, silent, whole] ∧
        garbage.calls = [] ∧ silent.calls = [.system .sleep] ∧
        whole.calls = [.trackpad .move 1 0] ∧
        garbage.log.getLast? = some ⟨.info, "disconnected",
          [("processed", .count 0), ("rejected", .count 2), ("skipped", .count 0)]⟩ ∧
        silent.log =
          [ ⟨.info, "connected", []⟩,
            ⟨.debug, "event dispatched", [("line", .count 1), ("event", .text "SYSTEM")]⟩,
            ⟨.warn, "disconnected: no data received for 1.5s",
              [("processed", .count 1), ("rejected", .count 0), ("skipped", .count 0)]⟩ ] ∧
        whole.log =
          [ ⟨.info, "connected", []⟩,
            ⟨.debug, "event dispatched", [("line", .count 1), ("event", .text "TRACKPAD")]⟩,
            ⟨.info, "disconnected",
              [("processed", .count 1), ("rejected", .count 0), ("skipped", .count 0)]⟩ ] ∧
        garbage.reply = [] ∧ silent.reply = [] ∧ whole.reply = [] := by
  have hrunning : ∀ turn ∈ hostileTurns, turn ≠ .stopped := by simp [hostileTurns]
  have hends : ∀ peer ∈ hostileTurns.filterMap Turn.peer?,
      (peer.ending? ⟨80, some ⟨1500⟩⟩).isSome = true := by decide +kernel
  obtain ⟨served, hserved, hreply, haccept⟩ := accept_alone
    ⟨Injection.recording, ⟨80, some ⟨1500⟩⟩, fun _ _ => 0⟩ [] hostileTurns [] hrunning hends
  have hreports : hostileTurns.filterMap Turn.record? =
      [⟨.error, "accept error: Too many open files (os error 24)", []⟩] := by decide +kernel
  rw [hreports] at haccept
  refine ⟨hrunning, hends, congrArg (·.2.2) haccept, ?_⟩
  obtain _ | ⟨hgarbage, _ | ⟨hsilent, _ | ⟨hwhole, _ | _⟩⟩⟩ := hserved
  refine ⟨_, _, _, congrArg (·.2.1) haccept, ?_⟩
  cases hgarbage with
  | closed hgarbage =>
      cases hsilent with
      | silent hlimit hsilent _ =>
          cases hlimit
          cases hwhole with
          | closed hwhole =>
              rw [hgarbage [] fun _ => 0, hsilent [] fun _ => 0, hwhole [] fun _ => 0]
              decide +kernel

/-! ## A listener that is told to stop after some peers -/

/-- Peers that are served one after another are each served alone, and then the stop is reported. -/
theorem serve_alone (setup : Setup σ) [Injection.Steady setup.backend] (start : σ)
    (peers : List Peer)
    (hends : ∀ peer ∈ peers, (peer.ending? setup.limits).isSome = true) :
    ∃ served, List.Forall₂ (ServedAlone setup) peers served ∧
      serve setup start peers =
        (setup.backend.after start (served.flatMap Served.calls), served,
          [⟨.info, "shutdown flag set; stopping accept loop", []⟩]) := by
  have hpeers : (peers.map Turn.connected).filterMap Turn.peer? = peers := by
    simp [List.filterMap_map, Function.comp_def, Turn.peer?]
  have hnothing : (peers.map Turn.connected).filterMap Turn.record? = [] := by
    simp [List.filterMap_map, Function.comp_def, Turn.record?]
  have hrunning : ∀ turn ∈ peers.map Turn.connected, turn ≠ .stopped := by
    rintro turn hturn rfl
    obtain ⟨peer, -, hpeer⟩ := List.mem_map.mp hturn
    cases hpeer
  obtain ⟨served, hserved, haccept⟩ :=
    acceptFrom_alone setup 0 start [] hrunning (hpeers.symm ▸ hends)
  rw [hpeers] at hserved
  rw [hnothing] at haccept
  exact ⟨served, hserved, haccept⟩

/-- A listener whose address cannot be held serves nobody.  Otherwise it says what it listens on,
serves each of its peers alone and reports that it stops. -/
theorem run_alone (network : Network) (config : HostConfig) (setup : Setup σ)
    [Injection.Steady setup.backend] (start : σ) (peers : List Peer)
    (hends : ∀ peer ∈ peers, (peer.ending? setup.limits).isSome = true) :
    match network.bind config.bindAddress with
    | .error e => run network config setup start peers = .error ⟨config.bindAddress, e⟩
    | .ok address =>
      ∃ served, List.Forall₂ (ServedAlone setup) peers served ∧
        run network config setup start peers = .ok
          { backend := setup.backend.after start (served.flatMap Served.calls)
            opening := [⟨.info, s!"host listening on {address.text}", []⟩]
            served
            closing := [⟨.info, "shutdown flag set; stopping accept loop", []⟩] } := by
  unfold run bind
  cases network.bind config.bindAddress with
  | error e => rfl
  | ok address =>
      obtain ⟨served, hserved, hserve⟩ := serve_alone setup start peers hends
      refine ⟨served, hserved, ?_⟩
      rw [hserve]
      rfl

end RemoteInput.Listener
