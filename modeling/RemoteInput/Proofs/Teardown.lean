import RemoteInput.Event.Encode
import RemoteInput.Proofs.Moves

/-!
# A connection ends once

A connection that has not ended was not shut down, and one that has ended was
shut down once (`Link.Tended`).  Its moves keep this (`after_tended`), and one that has ended does not
move again.

What comes of the shutdown shows in one record at most.  A script is compared with
the same script in which no shutdown fails (`Step.intact`): the connections stand
at the same places, and a connection that has ended did the same in both, except
that the record of its failed shutdown follows (`after_intact`,
`doings_intact`).  So the shutdown comes after everything else that the connection
does.
-/

namespace RemoteInput

/-- What comes of a shutdown is added at the end. -/
theorem Connection.finish_shutdown {σ : Type} (ctx : Context σ) (backend : σ) (state : State)
    (ending : StreamEnd) (shutdown : Except IoError Unit) :
    finish ctx backend state ending shutdown =
      let r := finish ctx backend state ending (.ok ())
      (r.1, r.2.1, r.2.2 ++ teardown shutdown) := by
  cases ending <;> simp [finish, teardown]

namespace Session

variable {σ : Type} {setup : Setup σ} {s s' : Session σ} {m m' : Move σ} {id : Nat}

/-! ## Shutdowns -/

/-- Whether a connection is open and was not shut down, or has ended and was shut down once. -/
def Link.Tended (link : Link) : Prop := link.shutdowns = if link.isOpen then 0 else 1

theorem Move.tended_settle (h : m.link.shutdowns = 0) (hopen : m.link.isOpen = true)
    (ending? : Option Connection.StreamEnd) : (m.settle setup ending?).link.Tended := by
  cases ending? with
  | none =>
      rw [Move.settle, Link.Tended, h, hopen]
      rfl
  | some ending => exact congrArg (· + 1) h

theorem moveOf?_tended {step : Step} (hmove : s.moveOf? setup id step = some m)
    (h : (s.link id).Tended) : m.link.Tended := by
  obtain ⟨hopen, hcases⟩ := moveOf?_cases hmove
  have hnone : (s.found id).link.shutdowns = 0 := by
    rw [Link.Tended, hopen] at h
    exact h
  obtain ⟨d, -, rfl⟩ | ⟨millis, -, -, rfl⟩ := hcases
  · refine Move.tended_settle ?_ ?_ _
    · rw [Move.shutdowns_read, hnone]
    · rw [Move.isOpen_read]
      exact hopen
  · exact Move.tended_settle hnone hopen _

/-- The ends of a connection of which nothing is left to report. -/
def endOf (id : Nat) : Option Link → Links
  | none => []
  | some link => if link.isOpen then [] else [(id, link)]

theorem endOf_open (h : (s.link id).isOpen = true) : endOf id (s.links.get? id) = [] := by
  unfold link at h
  cases hlink : s.links.get? id with
  | none => rfl
  | some link =>
      rw [hlink, Option.getD_some] at h
      rw [endOf, h, if_pos rfl]

/-- In every state that a script reaches, the connections are tended to. -/
theorem after_tended (setup : Setup σ) (start : σ) (steps : List Step) (id : Nat) :
    ∀ link, (after setup start steps).links.get? id = some link → link.Tended := by
  induction steps using List.reverseRecOn with
  | nil =>
      intro link hlink
      cases hlink
  | append_singleton steps step ih =>
      intro link hlink
      have hordered := after_ordered setup start steps
      rw [after_concat] at hlink
      cases hmove : (after setup start steps).moveOf? setup id step with
      | none =>
          rw [(step_rests hordered hmove).1] at hlink
          exact ih link hlink
      | some m =>
          rw [(step_moves hordered hmove).1] at hlink
          obtain rfl := Option.some.inj hlink
          refine moveOf?_tended hmove ?_
          cases hfound : (after setup start steps).links.get? id with
          | none =>
              rw [Session.link, hfound]
              rfl
          | some found =>
              rw [link_eq hfound]
              exact ih found hfound

/-- In every state that a script reaches, the end of a connection was reported once if it has ended,
and not at all otherwise. -/
theorem endings_run (setup : Setup σ) (start : σ) (steps : List Step) (id : Nat) :
    endings id ((initial start).run setup steps) =
      endOf id ((after setup start steps).links.get? id) := by
  induction steps using List.reverseRecOn with
  | nil => rfl
  | append_singleton steps step ih =>
      have hordered := after_ordered setup start steps
      rw [run_concat, after_concat, endings_append, endings_singleton, ih]
      cases hmove : (after setup start steps).moveOf? setup id step with
      | none =>
          obtain ⟨hlink, hreport⟩ := step_rests hordered hmove
          rw [hlink, hreport]
          exact List.append_nil _
      | some m =>
          obtain ⟨hlink, hreport⟩ := step_moves hordered hmove
          rw [hlink, hreport, endOf_open (moveOf?_cases hmove).1]
          rfl

/-! ## Shutdowns that fail -/

/-- A delivery after which the shutdown does not fail. -/
def Delivery.intact (d : Delivery) : Delivery := { d with failShutdown := false }

/-- The same step of a script in which no shutdown fails. -/
def Step.intact : Step → Step
  | .deliver id d => .deliver id d.intact
  | .advance millis => .advance millis

/-- The same connection with a shutdown that does not fail. -/
def Link.intact (link : Link) : Link := { link with shutdownFails := false }

/-- What a connection does after everything else.  It reports its shutdown, if that fails. -/
def Link.farewell (link : Link) : Trace :=
  if link.isOpen then {} else ⟨[], Connection.shutdownNote link.shutdown⟩

/-- Two moves that differ in what comes of the shutdown at most, which does not fail in the
second. -/
structure Move.Intact (m m' : Move σ) : Prop where
  backend : m'.backend = m.backend
  link : m'.link = m.link.intact
  trace : m.trace = m'.trace ++ m.link.farewell

/-- The same move with a shutdown that does not fail. -/
def Move.intact (m : Move σ) : Move σ := { m with link := m.link.intact }

theorem Move.read_intact (m : Move σ) (now : Nat) (d : Delivery) :
    m.intact.read setup now d.intact = (m.read setup now d).intact := by
  unfold Move.read Move.receive Delivery.intact
  dsimp only
  split <;> rfl

theorem Move.intact_settle (hopen : m.link.isOpen = true) (ending? : Option Connection.StreamEnd) :
    (m.settle setup ending?).Intact (m.intact.settle setup ending?) := by
  cases ending? with
  | none =>
      refine ⟨rfl, rfl, ?_⟩
      rw [Move.settle, Link.farewell, if_pos hopen, Trace.append_empty]
      rfl
  | some ending =>
      have hshutdown := Connection.finish_shutdown setup.context m.backend m.link.state ending
        m.link.shutdown
      have hfinish : m.finish setup ending =
          let r := Connection.finish setup.context m.backend m.link.state ending m.link.shutdown
          { backend := r.1
            link := { m.link with shutdowns := m.link.shutdowns + 1, summary := some r.2.1 }
            trace := m.trace ++ r.2.2 } := rfl
      rw [Move.settle, Move.settle, hfinish, hshutdown, Connection.teardown_eq]
      exact ⟨rfl, rfl, (Trace.append_assoc ..).symm⟩

/-- Two sessions that differ in what comes of shutdowns at most, none of which fails in the
second. -/
structure Intact (s s' : Session σ) : Prop where
  ordered : s.links.Ordered
  ordered' : s'.links.Ordered
  now : s'.now = s.now
  backend : s'.backend = s.backend
  links : ∀ id, s'.links.get? id = (s.links.get? id).map Link.intact

namespace Intact

theorem found (h : s.Intact s') (id : Nat) : s'.found id = (s.found id).intact := by
  unfold Session.found Session.link Move.intact
  rw [h.backend, h.links id, h.now]
  cases s.links.get? id <;> rfl

/-- A connection moves in both sessions or in neither. -/
theorem moveOf? (h : s.Intact s') (setup : Setup σ) (id : Nat) (step : Step) :
    (s.moveOf? setup id step = none ∧ s'.moveOf? setup id step.intact = none) ∨
      ∃ m m', s.moveOf? setup id step = some m ∧ s'.moveOf? setup id step.intact = some m' ∧
        m.Intact m' := by
  cases step with
  | deliver other d =>
      by_cases hid : other = id
      · subst hid
        have hfound := h.found other
        have hsame : (s'.link other).isOpen = (s.link other).isOpen :=
          congrArg (fun m => m.link.isOpen) hfound
        cases hopen : (s.link other).isOpen with
        | true =>
            refine .inr ⟨_, _, moveOf?_deliver hopen d,
              moveOf?_deliver (hsame.trans hopen) d.intact, ?_⟩
            rw [Move.deliver_eq_settle, Move.deliver_eq_settle, ← Session.found, ← Session.found,
              hfound, h.now, Move.read_intact]
            exact Move.intact_settle ((Move.isOpen_read ..).trans hopen) _
        | false =>
            exact .inl ⟨moveOf?_deliver_ended hopen d,
              moveOf?_deliver_ended (hsame.trans hopen) d.intact⟩
      · exact .inl ⟨moveOf?_deliver_other hid d, moveOf?_deliver_other hid d.intact⟩
  | advance millis =>
      cases hlink : s.links.get? id with
      | none =>
          have hlink' : s'.links.get? id = none := by rw [h.links, hlink, Option.map_none]
          exact .inl ⟨moveOf?_advance_none hlink millis, moveOf?_advance_none hlink' millis⟩
      | some link =>
          have hlink' : s'.links.get? id = some link.intact := by
            rw [h.links, hlink, Option.map_some]
          cases hopen : link.isOpen with
          | true =>
              refine .inr ⟨_, _, moveOf?_advance hlink hopen millis,
                moveOf?_advance hlink' hopen millis, ?_⟩
              rw [Move.expire_eq_settle, Move.expire_eq_settle, h.now, h.backend]
              exact Move.intact_settle hopen _
          | false =>
              exact .inl ⟨moveOf?_advance_ended hlink hopen millis,
                moveOf?_advance_ended hlink' hopen millis⟩

theorem step (h : s.Intact s') (setup : Setup σ) (step : Step) :
    (s.step setup step).1.Intact (s'.step setup step.intact).1 := by
  refine ⟨step_ordered h.ordered setup step, step_ordered h.ordered' setup step.intact, ?_, ?_, ?_⟩
  · rw [step_now, step_now, h.now]
    cases step <;> rfl
  · cases step with
    | advance millis => exact (backend_advance ..).trans (h.backend.trans (backend_advance ..).symm)
    | deliver id d =>
        rw [Step.intact, backend_deliver, backend_deliver]
        have hmoves := h.moveOf? setup id (.deliver id d)
        rw [Step.intact] at hmoves
        obtain ⟨hmove, hmove'⟩ | ⟨m, m', hmove, hmove', hintact⟩ := hmoves
        · rw [hmove, hmove']
          exact h.backend
        · rw [hmove, hmove']
          exact hintact.backend
  · intro id
    obtain ⟨hmove, hmove'⟩ | ⟨m, m', hmove, hmove', hintact⟩ := h.moveOf? setup id step
    · rw [(step_rests h.ordered hmove).1, (step_rests h.ordered' hmove').1, h.links]
    · rw [(step_moves h.ordered hmove).1, (step_moves h.ordered' hmove').1, hintact.link]
      rfl

end Intact

/-- What the connection of a number does after everything else. -/
def farewellOf : Option Link → Trace
  | none => {}
  | some link => link.farewell

theorem farewellOf_open (h : (s.link id).isOpen = true) :
    farewellOf (s.links.get? id) = {} := by
  cases hlink : s.links.get? id with
  | none => rfl
  | some link =>
      rw [link_eq hlink] at h
      exact if_pos h

/-- A script and the same script in which no shutdown fails reach the same places. -/
theorem after_intact (setup : Setup σ) (start : σ) (steps : List Step) :
    (after setup start steps).Intact (after setup start (steps.map Step.intact)) := by
  induction steps using List.reverseRecOn with
  | nil => exact ⟨.nil, .nil, rfl, rfl, fun _ => rfl⟩
  | append_singleton steps step ih =>
      rw [List.map_append, List.map_singleton, after_concat, after_concat]
      exact ih.step setup step

/-- A connection does the same in both scripts, and then what comes of its shutdown follows. -/
theorem doings_intact (setup : Setup σ) (start : σ) (steps : List Step) (id : Nat) :
    doings id ((initial start).run setup steps) =
      doings id ((initial start).run setup (steps.map Step.intact)) ++
        farewellOf ((after setup start steps).links.get? id) := by
  induction steps using List.reverseRecOn with
  | nil => rfl
  | append_singleton steps step ih =>
      have hintact := after_intact setup start steps
      rw [List.map_append, List.map_singleton, run_concat, run_concat, doings_append, doings_append,
        doings_singleton, doings_singleton, ih, after_concat]
      obtain ⟨hmove, hmove'⟩ | ⟨m, m', hmove, hmove', hsame⟩ := hintact.moveOf? setup id step
      · rw [(step_rests hintact.ordered hmove).1, (step_rests hintact.ordered hmove).2,
          (step_rests hintact.ordered' hmove').2]
        have hnothing : ({} : Report).trace = {} := rfl
        rw [hnothing, Trace.append_empty, Trace.append_empty]
      · rw [(step_moves hintact.ordered hmove).1, (step_moves hintact.ordered hmove).2,
          (step_moves hintact.ordered' hmove').2, farewellOf_open (moveOf?_cases hmove).1,
          Trace.append_empty, Move.trace_report, Move.trace_report, hsame.trace, farewellOf,
          Trace.append_assoc]

/-- In every state that a script reaches, a connection is open, was not shut down and has no
summary, or it has ended, was shut down once and its one summary was reported.  Once it has ended,
nothing in the rest of the script changes where it stands, what it did and what was reported of its
end.  If no shutdown of the script failed, it would stand at the same place, its summary included,
and it would have done the same without what comes of its shutdown, which it does after everything
else. -/
theorem run_shutdown_once (setup : Setup σ) (start : σ) (steps later : List Step) (id : Nat)
    {link : Link} (hlink : (after setup start steps).links.get? id = some link) :
    let rs := (initial start).run setup steps
    let whole := (initial start).run setup (steps ++ later)
    let intact := (initial start).run setup (steps.map Step.intact)
    ((link.summary = none ∧ link.shutdowns = 0 ∧ endings id rs = []) ∨
        ∃ summary, link.summary = some summary ∧ link.shutdowns = 1 ∧
          endings id rs = [(id, link)] ∧
          (after setup start (steps ++ later)).links.get? id = some link ∧
          doings id whole = doings id rs ∧ endings id whole = endings id rs) ∧
      (after setup start (steps.map Step.intact)).links.get? id = some link.intact ∧
      doings id rs = doings id intact ++ link.farewell := by
  have htended := after_tended setup start steps id link hlink
  have hendings := endings_run setup start steps id
  rw [hlink] at hendings
  refine ⟨?_, ?_, ?_⟩
  · cases hsummary : link.summary with
    | none =>
        have hopen : link.isOpen = true := by rw [Link.isOpen, hsummary]; rfl
        rw [Link.Tended, hopen] at htended
        rw [endOf, hopen] at hendings
        exact .inl ⟨rfl, htended, hendings⟩
    | some summary =>
        have hended : link.isOpen = false := by rw [Link.isOpen, hsummary]; rfl
        rw [Link.Tended, hended] at htended
        rw [endOf, hended] at hendings
        obtain ⟨hlast, hdoings, hnone⟩ :=
          run_settled setup (after_ordered setup start steps) hlink hended later
        rw [run_append, doings_append, endings_append, after, run_append, last_append]
        refine .inr ⟨summary, rfl, htended, hendings, hlast, ?_, ?_⟩
        · exact (congrArg _ hdoings).trans (Trace.append_empty _)
        · exact (congrArg _ hnone).trans (List.append_nil _)
  · rw [(after_intact setup start steps).links id, hlink, Option.map_some]
  · rw [doings_intact setup start steps id, hlink, farewellOf]

/-- The peer of the first connection closes the stream within a line, and the shutdown fails. -/
def goneWithinLine : List Step :=
  let sleep := Utf8.encode (Event.line ⟨0, .system .sleep⟩)
  [ .deliver 1 { data := sleep.take 20 },
    .deliver 2 { data := sleep },
    .deliver 1 { data := (sleep.drop 20).dropLast, close := true, failShutdown := true } ]

/-- The first connection is sent a line after its end, and then there is silence. -/
def tooLate : List Step :=
  [.deliver 1 { data := Utf8.encode (Event.line ⟨0, .trackpad .move 1 0⟩) }, .advance 1000]

/-- The last line is acted on, the shutdown is reported after it, and nothing follows. -/
theorem run_shutdown_once_withinLine :
    let s := after shortSetup [] goneWithinLine
    let rs := (initial []).run shortSetup goneWithinLine
    let whole := (initial []).run shortSetup (goneWithinLine ++ tooLate)
    s.links.get? 1 = some (s.link 1) ∧
      (s.link 1).summary = some ⟨{ processed := 1 }, .peerClosed⟩ ∧ (s.link 1).shutdowns = 1 ∧
      endings 1 whole = [(1, s.link 1)] ∧ doings 1 whole = doings 1 rs ∧
      doings 1 rs = ⟨[.system .sleep],
        [ ⟨.debug, "event dispatched", [("line", .count 1), ("event", .text "SYSTEM")]⟩,
          ⟨.debug, "shutdown after close failed: already gone", []⟩ ]⟩ := by
  have hlink : (after shortSetup [] goneWithinLine).links.get? 1 =
      some ((after shortSetup [] goneWithinLine).link 1) := by decide +kernel
  have hsummary : ((after shortSetup [] goneWithinLine).link 1).summary =
      some ⟨{ processed := 1 }, .peerClosed⟩ := by decide +kernel
  obtain ⟨⟨hnone, -⟩ | ⟨summary, -, hshutdowns, hended, -, hdoings, hendings⟩, -, htrace⟩ :=
    run_shutdown_once shortSetup [] goneWithinLine tooLate 1 hlink
  · rw [hsummary] at hnone
    cases hnone
  · refine ⟨hlink, hsummary, hshutdowns, hendings.trans hended, hdoings, htrace.trans ?_⟩
    exact Trace.ext (by decide +kernel) (by decide +kernel)

end Session

end RemoteInput
