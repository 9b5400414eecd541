import Mathlib.Data.List.Induction
import RemoteInput.Proofs.Isolation

/-!
# What a script does to one connection

In a step a connection of a session moves, or it stays as it is and nothing is
reported of it.  `moveOf?` says once and for all in which steps a connection
moves, and how (`step_moves`, `step_rests`).  What holds of a connection in every
state that a script can reach is then proved along the script: its moves keep it,
and nothing else can touch it.  One that has ended does not move again
(`run_settled`).

If a session has no other connection, a step is the move that this one makes in it
(`Lone.step_moves`).
-/

namespace RemoteInput.Session

variable {σ : Type} {setup : Setup σ}

/-! ## The move of a step -/

/-- The move that a connection makes in a step, if it makes one. -/
def moveOf? (setup : Setup σ) (s : Session σ) (id : Nat) : Step → Option (Move σ)
  | .deliver other d =>
    if other = id ∧ (s.link id).isOpen = true then
      some (Move.deliver setup s.now { backend := s.backend, link := s.link id } d)
    else none
  | .advance millis =>
    match s.links.get? id with
    | none => none
    | some link =>
      if link.isOpen then
        some (Move.expire setup (s.now + millis) { backend := s.backend, link })
      else none

section

variable {s : Session σ} {id other : Nat} {link : Link}

theorem moveOf?_deliver (h : (s.link id).isOpen = true) (d : Delivery) :
    s.moveOf? setup id (.deliver id d) =
      some (Move.deliver setup s.now { backend := s.backend, link := s.link id } d) :=
  if_pos ⟨rfl, h⟩

theorem moveOf?_deliver_ended (h : (s.link id).isOpen = false) (d : Delivery) :
    s.moveOf? setup id (.deliver id d) = none :=
  if_neg fun hmoves => Bool.false_ne_true (h.symm.trans hmoves.2)

theorem moveOf?_deliver_other (h : other ≠ id) (d : Delivery) :
    s.moveOf? setup id (.deliver other d) = none :=
  if_neg fun hmoves => h hmoves.1

theorem moveOf?_advance (hlink : s.links.get? id = some link) (h : link.isOpen = true)
    (millis : Nat) :
    s.moveOf? setup id (.advance millis) =
      some (Move.expire setup (s.now + millis) { backend := s.backend, link }) := by
  simp only [moveOf?, hlink, h, if_true]

theorem moveOf?_advance_ended (hlink : s.links.get? id = some link) (h : link.isOpen = false)
    (millis : Nat) : s.moveOf? setup id (.advance millis) = none := by
  simp only [moveOf?, hlink, h, if_false, Bool.false_eq_true]

theorem moveOf?_advance_none (hlink : s.links.get? id = none) (millis : Nat) :
    s.moveOf? setup id (.advance millis) = none := by
  simp only [moveOf?, hlink]

end

/-- What is seen of a connection after a step in which it made a move, or none. -/
def glanceOf (id : Nat) (before : Option Link) : Option (Move σ) → Glance
  | some m => ⟨some m.link, m.report id⟩
  | none => ⟨before, {}⟩

variable {s : Session σ}

theorem glance_deliver (s : Session σ) (id other : Nat) (d : Delivery) :
    glance id (s.deliver setup other d) =
      glanceOf id (s.links.get? id) (s.moveOf? setup id (.deliver other d)) := by
  by_cases hid : other = id
  · subst hid
    cases hopen : (s.link other).isOpen with
    | true =>
        rw [deliver_open hopen, moveOf?_deliver hopen, glance, Links.get?_put_self,
          Move.only_report, beq_self_eq_true, if_pos rfl, glanceOf]
    | false =>
        rw [deliver_ended hopen, moveOf?_deliver_ended hopen]
        rfl
  · rw [moveOf?_deliver_other hid]
    cases hopen : (s.link other).isOpen with
    | true =>
        rw [deliver_open hopen, glance, Links.get?_put_other (Ne.symm hid), Move.only_report,
          beq_eq_false_iff_ne.mpr hid]
        rfl
    | false =>
        rw [deliver_ended hopen]
        rfl

/-- Moving the clock moves a connection as it would if it were alone. -/
theorem glance_advance (h : s.links.Ordered) (id millis : Nat) :
    glance id (s.advance setup millis) =
      glanceOf id (s.links.get? id) (s.moveOf? setup id (.advance millis)) := by
  have hordered : (s.advance setup millis).1.links.Ordered :=
    step_ordered h setup (.advance millis)
  have halone : (expireAll setup (s.now + millis) s.backend (s.links.only id)).2 =
      ((s.advance setup millis).1.links.only id, (s.advance setup millis).2.only id) :=
    expireAll_only rfl id (s.now + millis) s.backend s.backend s.links
  have hglance : glance id (s.advance setup millis) =
      ⟨(expireAll setup (s.now + millis) s.backend (s.links.only id)).2.1.get? id,
        (expireAll setup (s.now + millis) s.backend (s.links.only id)).2.2⟩ := by
    rw [halone, Links.get?_only hordered, glance]
  rw [hglance, Links.only_eq h]
  cases hlink : s.links.get? id with
  | none =>
      rw [moveOf?_advance_none hlink]
      rfl
  | some link =>
      rw [Option.map_some, Option.toList_some]
      cases hopen : link.isOpen with
      | true =>
          rw [moveOf?_advance hlink hopen, expireAll_open hopen]
          simp [expireAll, glanceOf, Report.append_empty, Links.get?]
      | false =>
          rw [moveOf?_advance_ended hlink hopen, expireAll_ended hopen]
          simp [expireAll, glanceOf, Links.get?]

/-- What is seen of a connection after a step is what its move says. -/
theorem glance_step (h : s.links.Ordered) (id : Nat) (step : Step) :
    glance id (s.step setup step) =
      glanceOf id (s.links.get? id) (s.moveOf? setup id step) := by
  cases step with
  | deliver other d => exact glance_deliver s id other d
  | advance millis => exact glance_advance h id millis

theorem step_moves {id : Nat} {step : Step} {m : Move σ} (h : s.links.Ordered)
    (hmove : s.moveOf? setup id step = some m) :
    (s.step setup step).1.links.get? id = some m.link ∧
      (s.step setup step).2.only id = m.report id := by
  have hglance := (glance_step h id step : glance id (s.step setup step) = _)
  rw [hmove] at hglance
  exact Glance.mk.inj hglance

theorem step_rests {id : Nat} {step : Step} (h : s.links.Ordered)
    (hmove : s.moveOf? setup id step = none) :
    (s.step setup step).1.links.get? id = s.links.get? id ∧
      (s.step setup step).2.only id = {} := by
  have hglance := (glance_step h id step : glance id (s.step setup step) = _)
  rw [hmove] at hglance
  exact Glance.mk.inj hglance

theorem link_eq {s : Session σ} {id : Nat} {link : Link} (h : s.links.get? id = some link) :
    s.link id = link := by
  rw [Session.link, h, Option.getD_some]

/-- The move of a connection in a step starts from where the step finds it. -/
def found (s : Session σ) (id : Nat) : Move σ := { backend := s.backend, link := s.link id }

/-- Only open connections move.  A delivery is read and may end the stream, and when the clock moves
a wait may expire. -/
theorem moveOf?_cases {id : Nat} {step : Step} {m : Move σ}
    (hmove : s.moveOf? setup id step = some m) :
    (s.link id).isOpen = true ∧
      ((∃ d, step = .deliver id d ∧
          m = ((s.found id).read setup s.now d).settle setup
            (d.ending? setup.readTimeout s.now
              ((s.found id).read setup s.now d).link.waitingSince)) ∨
        ∃ millis, step = .advance millis ∧ s.links.get? id = some (s.link id) ∧
          m = (s.found id).settle setup
            (expiry? setup.readTimeout (s.now + millis) (s.link id).waitingSince)) := by
  cases step with
  | deliver other d =>
      by_cases hid : other = id
      · subst hid
        cases hopen : (s.link other).isOpen with
        | true =>
            rw [moveOf?_deliver hopen, Move.deliver_eq_settle] at hmove
            exact ⟨rfl, .inl ⟨d, rfl, (Option.some.inj hmove).symm⟩⟩
        | false =>
            rw [moveOf?_deliver_ended hopen] at hmove
            cases hmove
      · rw [moveOf?_deliver_other hid] at hmove
        cases hmove
  | advance millis =>
      cases hlink : s.links.get? id with
      | none =>
          rw [moveOf?_advance_none hlink] at hmove
          cases hmove
      | some link =>
          have hself := link_eq hlink
          rw [← hself] at hlink ⊢
          cases hopen : (s.link id).isOpen with
          | true =>
              rw [moveOf?_advance hlink hopen, Move.expire_eq_settle] at hmove
              exact ⟨rfl, .inr ⟨millis, rfl, rfl, (Option.some.inj hmove).symm⟩⟩
          | false =>
              rw [moveOf?_advance_ended hlink hopen] at hmove
              cases hmove

/-! ## After the end -/

theorem get?_of_ended {id : Nat} (h : (s.link id).isOpen = false) :
    s.links.get? id = some (s.link id) := by
  cases hlink : s.links.get? id with
  | some link => rw [link_eq hlink]
  | none =>
      rw [Session.link, hlink] at h
      cases h

/-- In a step nothing happens to a connection that has ended. -/
theorem step_settled {id : Nat} (hordered : s.links.Ordered) (h : (s.link id).isOpen = false)
    (step : Step) :
    (s.step setup step).1.links.get? id = some (s.link id) ∧
      (s.step setup step).2.only id = {} := by
  rw [← get?_of_ended h]
  cases hmove : s.moveOf? setup id step with
  | none => exact step_rests hordered hmove
  | some m => exact absurd ((moveOf?_cases hmove).1.symm.trans h) (by decide)

/-! ## Along a script -/

/-- The session after a script. -/
def after (setup : Setup σ) (start : σ) (steps : List Step) : Session σ :=
  last (initial start) ((initial start).run setup steps)

/-- Everything that one connection did in a script. -/
def doings (id : Nat) (rs : List (Session σ × Report)) : Trace :=
  trace (rs.map fun r => (r.1, r.2.only id))

/-- The ends of one connection that were reported in a script. -/
def endings (id : Nat) (rs : List (Session σ × Report)) : Links :=
  rs.flatMap fun r => Links.only id r.2.ended

theorem run_concat (setup : Setup σ) (start : σ) (steps : List Step) (step : Step) :
    (initial start).run setup (steps ++ [step]) =
      (initial start).run setup steps ++ [(after setup start steps).step setup step] := by
  rw [run_append]
  rfl

theorem after_concat (setup : Setup σ) (start : σ) (steps : List Step) (step : Step) :
    after setup start (steps ++ [step]) = ((after setup start steps).step setup step).1 := by
  rw [after, run_concat, last_append]
  rfl

theorem doings_append (id : Nat) (rs rs' : List (Session σ × Report)) :
    doings id (rs ++ rs') = doings id rs ++ doings id rs' := by
  rw [doings, List.map_append, trace_append]
  rfl

theorem doings_singleton (id : Nat) (r : Session σ × Report) :
    doings id [r] = (r.2.only id).trace := Trace.append_empty _

theorem doings_cons (id : Nat) (r : Session σ × Report) (rs : List (Session σ × Report)) :
    doings id (r :: rs) = (r.2.only id).trace ++ doings id rs := rfl

theorem endings_append (id : Nat) (rs rs' : List (Session σ × Report)) :
    endings id (rs ++ rs') = endings id rs ++ endings id rs' := List.flatMap_append

theorem endings_singleton (id : Nat) (r : Session σ × Report) :
    endings id [r] = (r.2.only id).ended := List.append_nil _

theorem endings_cons (id : Nat) (r : Session σ × Report) (rs : List (Session σ × Report)) :
    endings id (r :: rs) = (r.2.only id).ended ++ endings id rs := List.flatMap_cons

theorem after_ordered (setup : Setup σ) (start : σ) (steps : List Step) :
    (after setup start steps).links.Ordered := by
  induction steps using List.reverseRecOn with
  | nil => exact .nil
  | append_singleton steps step ih =>
      rw [after_concat]
      exact step_ordered ih setup step

theorem after_settled {setup : Setup σ} {start : σ} {steps : List Step} {id : Nat}
    (h : ((after setup start steps).link id).isOpen = false) (step : Step) :
    (after setup start (steps ++ [step])).links.get? id =
      some ((after setup start steps).link id) := by
  rw [after_concat]
  exact (step_settled (after_ordered setup start steps) h step).1

/-- Whatever a script goes on with, a connection that has ended stays as it is, and nothing more is
done by it or reported of it. -/
theorem run_settled (setup : Setup σ) {id : Nat} {link : Link} (h : s.links.Ordered)
    (hlink : s.links.get? id = some link) (hended : link.isOpen = false) (steps : List Step) :
    (last s (s.run setup steps)).links.get? id = some link ∧
      doings id (s.run setup steps) = {} ∧ endings id (s.run setup steps) = [] := by
  induction steps generalizing s with
  | nil => exact ⟨hlink, rfl, rfl⟩
  | cons step steps ih =>
      have hrests : (s.step setup step).1.links.get? id = some (s.link id) ∧
          (s.step setup step).2.only id = {} :=
        step_settled h (link_eq hlink ▸ hended) step
      obtain ⟨hnext, hreport⟩ := hrests
      rw [link_eq hlink] at hnext
      obtain ⟨hlast, hdoings, hendings⟩ := ih (step_ordered h setup step) hnext
      rw [run_cons, last_cons, doings_cons, endings_cons, hdoings, hendings, hreport]
      exact ⟨hlast, rfl, rfl⟩

/-! ## The clock and the backend -/

/-- By how much a step moves the clock. -/
def Step.millis : Step → Nat
  | .deliver _ _ => 0
  | .advance millis => millis

theorem step_now (setup : Setup σ) (s : Session σ) (step : Step) :
    (s.step setup step).1.now = s.now + step.millis := by
  cases step with
  | advance millis => rfl
  | deliver id d =>
      unfold Session.step
      dsimp only
      cases hopen : (s.link id).isOpen with
      | true =>
          rw [deliver_open hopen]
          rfl
      | false =>
          rw [deliver_ended hopen]
          rfl

theorem Move.backend_expire (m : Move σ) (now : Nat) :
    (m.expire setup now).backend = m.backend := by
  rw [Move.expire_eq_settle]
  cases hexpiry : expiry? setup.readTimeout now m.link.waitingSince with
  | none => rfl
  | some ending =>
      obtain ⟨limit, -, -, rfl⟩ := expiry?_eq_some.mp hexpiry
      rfl

theorem expireAll_backend (setup : Setup σ) (now : Nat) (backend : σ) (links : Links) :
    (expireAll setup now backend links).1 = backend := by
  induction links generalizing backend with
  | nil => rfl
  | cons l links ih =>
      obtain ⟨id, link⟩ := l
      cases hopen : link.isOpen with
      | true =>
          rw [expireAll_open hopen]
          exact (ih _).trans (Move.backend_expire ..)
      | false =>
          rw [expireAll_ended hopen]
          exact ih backend

/-- Moving the clock does nothing to the backend. -/
theorem backend_advance (setup : Setup σ) (s : Session σ) (millis : Nat) :
    (s.step setup (.advance millis)).1.backend = s.backend :=
  expireAll_backend setup (s.now + millis) s.backend s.links

/-- A delivery does to the backend what it makes its connection do. -/
theorem backend_deliver (setup : Setup σ) (s : Session σ) (id : Nat) (d : Delivery) :
    (s.step setup (.deliver id d)).1.backend =
      ((s.moveOf? setup id (.deliver id d)).map Move.backend).getD s.backend := by
  unfold Session.step
  dsimp only
  cases hopen : (s.link id).isOpen with
  | true =>
      rw [deliver_open hopen, moveOf?_deliver hopen]
      rfl
  | false =>
      rw [deliver_ended hopen, moveOf?_deliver_ended hopen]
      rfl

/-- The move of a connection takes the backend along. -/
theorem step_backend {id : Nat} {step : Step} {m : Move σ}
    (hmove : s.moveOf? setup id step = some m) : (s.step setup step).1.backend = m.backend := by
  obtain ⟨hopen, ⟨d, rfl, -⟩ | ⟨millis, rfl, hlink, -⟩⟩ := moveOf?_cases hmove
  · rw [backend_deliver, hmove]
    rfl
  · rw [moveOf?_advance hlink hopen] at hmove
    obtain rfl := Option.some.inj hmove
    rw [backend_advance, Move.backend_expire]

/-! ## A connection that is alone -/

/-- Whether a session has no connection but one. -/
structure Lone (id : Nat) (s : Session σ) : Prop where
  ordered : s.links.Ordered
  links : s.links.only id = s.links

namespace Lone

variable {id : Nat}

theorem of_links {link : Link} (h : s.links = [(id, link)]) : s.Lone id := by
  constructor
  · rw [h]
    exact List.pairwise_singleton ..
  · rw [h]
    simp [Links.only]

theorem links_eq {link : Link} (h : s.Lone id) (hlink : s.links.get? id = some link) :
    s.links = [(id, link)] := by
  rw [← h.links, Links.only_eq h.ordered, hlink]
  rfl

/-- It stays alone if nothing is delivered to others, and what is reported is reported of it. -/
theorem step (h : s.Lone id) (setup : Setup σ) {step : Step} (hstep : step.concerns id = true) :
    (s.step setup step).1.Lone id ∧ (s.step setup step).2.only id = (s.step setup step).2 := by
  have hordered := step_ordered h.ordered setup step
  cases step with
  | advance millis =>
      have hlimit : setup.readTimeout = setup.readTimeout := rfl
      have hexpire := expireAll_only hlimit id (s.now + millis) s.backend s.backend s.links
      rw [h.links] at hexpire
      exact ⟨⟨hordered, (congrArg Prod.fst hexpire).symm⟩, (congrArg Prod.snd hexpire).symm⟩
  | deliver other d =>
      obtain rfl : other = id := beq_iff_eq.mp hstep
      unfold Session.step at hordered ⊢
      dsimp only at hordered ⊢
      cases hopen : (s.link other).isOpen with
      | true =>
          rw [deliver_open hopen] at hordered ⊢
          refine ⟨⟨hordered, ?_⟩, ?_⟩
          · exact (Links.only_put_self h.ordered _).trans (h.links.symm ▸ rfl)
          · exact (Move.only_report ..).trans (if_pos (beq_self_eq_true other))
      | false =>
          rw [deliver_ended hopen]
          exact ⟨h, rfl⟩

/-- What a step does is its move then, if it makes one. -/
theorem step_moves (h : s.Lone id) {step : Step} {m : Move σ} (hstep : step.concerns id = true)
    (hmove : s.moveOf? setup id step = some m) :
    (s.step setup step).1.links = [(id, m.link)] ∧ (s.step setup step).1.backend = m.backend ∧
      (s.step setup step).2.trace = m.trace := by
  obtain ⟨hlink, hreport⟩ := Session.step_moves h.ordered hmove
  obtain ⟨hlone, hown⟩ := h.step setup hstep
  refine ⟨hlone.links_eq hlink, step_backend hmove, ?_⟩
  rw [← hown, hreport, Move.trace_report]

/-- In a script that delivers nothing to others, all that is done is done by it. -/
theorem run (h : s.Lone id) (setup : Setup σ) {steps : List Step}
    (hsteps : ∀ step ∈ steps, step.concerns id = true) :
    (last s (s.run setup steps)).Lone id ∧
      trace (s.run setup steps) = doings id (s.run setup steps) := by
  induction steps generalizing s with
  | nil => exact ⟨h, rfl⟩
  | cons step steps ih =>
      obtain ⟨hstep, hrest⟩ := List.forall_mem_cons.mp hsteps
      obtain ⟨hnext, hreport⟩ := h.step setup hstep
      obtain ⟨hlast, htrace⟩ := ih hnext hrest
      rw [run_cons, last_cons, trace, doings_cons, htrace, hreport]
      exact ⟨hlast, rfl⟩

/-- After its end nothing at all happens. -/
theorem run_settled (h : s.Lone id) (setup : Setup σ) {link : Link}
    (hlink : s.links.get? id = some link) (hended : link.isOpen = false) {steps : List Step}
    (hsteps : ∀ step ∈ steps, step.concerns id = true) :
    (last s (s.run setup steps)).links = s.links ∧
      (last s (s.run setup steps)).backend = s.backend ∧ trace (s.run setup steps) = {} := by
  obtain ⟨hlast, hdoings, -⟩ := Session.run_settled setup h.ordered hlink hended steps
  obtain ⟨hlone, htrace⟩ := h.run setup hsteps
  rw [hdoings] at htrace
  refine ⟨(hlone.links_eq hlast).trans (h.links_eq hlink).symm, ?_, htrace⟩
  rw [run_after, ← calls_trace, htrace]
  rfl

end Lone

end RemoteInput.Session
