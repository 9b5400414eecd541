import RemoteInput.Proofs.Scripts
import RemoteInput.Proofs.Steady

/-!
# Connections do not influence one another

The connections of a session share a backend and a clock, and nothing else.  If
the backend is steady, a connection does not notice the others.  Without the
steps that are addressed to others it does the same, ends in the same way and
stands at the same place after each of the steps that are left (`run_apart`).

One step is followed in the whole session and in the session of one connection
alone (`Sees`).  A step for another connection leaves alone what is seen of this
one (`step_other`), and any other step keeps the two together (`step_concerns`).
The links are in ascending order, so there is one link for each number.
-/

namespace RemoteInput.Session

variable {σ : Type}

/-! ## What is seen of one connection -/

/-- The connections of one number. -/
def Links.only (id : Nat) (links : Links) : Links := links.filter fun l => l.1 == id

/-- What a report says of one connection. -/
def Report.only (id : Nat) (report : Report) : Report where
  traces := report.traces.filter fun t => t.1 == id
  ended := Links.only id report.ended

/-- What is seen of a connection after a step. -/
structure Glance where
  /-- Where it stands. -/
  link : Option Link
  /-- What it did in the step and whether it ended. -/
  report : Report

/-- Looks at one connection after a step. -/
def glance (id : Nat) (r : Session σ × Report) : Glance := ⟨r.1.links.get? id, r.2.only id⟩

/-- The glances at a connection after every step of a script, given those after the steps that have
to do with it.  In a step for another connection it does nothing and stays where it is. -/
def withPauses (id : Nat) (link : Option Link) : List Step → List Glance → List Glance
  | [], _ => []
  | step :: steps, glances =>
    if step.concerns id then
      match glances with
      | [] => []
      | g :: glances => g :: withPauses id g.link steps glances
    else ⟨link, {}⟩ :: withPauses id link steps glances

theorem withPauses_concerns {id : Nat} {step : Step} (h : step.concerns id = true)
    (link : Option Link) (steps : List Step) (g : Glance) (glances : List Glance) :
    withPauses id link (step :: steps) (g :: glances) =
      g :: withPauses id g.link steps glances := by
  simp [withPauses, h]

theorem withPauses_other {id : Nat} {step : Step} (h : step.concerns id = false)
    (link : Option Link) (steps : List Step) (glances : List Glance) :
    withPauses id link (step :: steps) glances =
      ⟨link, {}⟩ :: withPauses id link steps glances := by
  simp [withPauses, h]

/-! ## Links -/

namespace Links

variable {id other : Nat} {link : Link} {links : Links}

theorem only_cons (id other : Nat) (link : Link) (links : Links) :
    only id ((other, link) :: links) =
      if other == id then (other, link) :: only id links else only id links := by
  simp only [only, List.filter_cons]

/-- In order there is one link for each number. -/
theorem only_eq (h : links.Ordered) :
    links.only id = ((links.get? id).map (id, ·)).toList := by
  induction links with
  | nil => rfl
  | cons l links ih =>
      obtain ⟨other, link⟩ := l
      obtain ⟨hhead, htail⟩ := List.pairwise_cons.mp h
      rw [get?_cons, only_cons, ih htail]
      by_cases heq : id = other
      · subst heq
        simp [get?_eq_none hhead]
      · simp [heq, Ne.symm heq]

theorem only_put_self (h : links.Ordered) (link : Link) :
    (links.put id link).only id = (links.only id).put id link := by
  rw [only_eq (h.put id link), get?_put_self, only_eq h]
  cases links.get? id <;> simp [put]

theorem only_put_other (h : links.Ordered) (hne : id ≠ other) (link : Link) :
    (links.put other link).only id = links.only id := by
  rw [only_eq (h.put other link), get?_put_other hne, only_eq h]

theorem get?_only (h : links.Ordered) (id : Nat) : (links.only id).get? id = links.get? id := by
  rw [only_eq h]
  cases links.get? id <;> simp [get?]

end Links

/-! ## One connection in two sessions -/

/-- Two setups that differ in the clock at most. -/
structure Setup.SameButClock (setup setup' : Setup σ) : Prop where
  context : setup.context.SameButClock setup'.context
  readTimeout : setup.readTimeout = setup'.readTimeout

/-- Two moves that differ in the state of the backend at most. -/
structure Move.Alike (m m' : Move σ) : Prop where
  link : m.link = m'.link
  trace : m.trace = m'.trace

variable {setup setup' : Setup σ} {m m' : Move σ}

theorem Move.Alike.start (backend backend' : σ) (link : Link) :
    Move.Alike { backend, link } { backend := backend', link } := ⟨rfl, rfl⟩

theorem Move.Alike.report (h : m.Alike m') (id : Nat) : m.report id = m'.report id := by
  rw [Move.report, Move.report, h.link, h.trace]

theorem Move.Alike.finish [Injection.Steady setup.context.backend]
    (hsetup : setup.SameButClock setup') (h : m.Alike m') (ending : Connection.StreamEnd) :
    (m.finish setup ending).Alike (m'.finish setup' ending) := by
  have hfinish := Connection.finish_steady hsetup.context m.backend m'.backend m'.link.state ending
    (if m'.link.shutdownFails then .error shutdownError else .ok ())
  unfold Move.finish
  rw [h.link, h.trace]
  exact ⟨by simp only [hfinish], by simp only [hfinish]⟩

theorem Move.Alike.settle [Injection.Steady setup.context.backend]
    (hsetup : setup.SameButClock setup') (h : m.Alike m')
    (ending? : Option Connection.StreamEnd) :
    (m.settle setup ending?).Alike (m'.settle setup' ending?) := by
  cases ending? with
  | none => exact h
  | some ending => exact h.finish hsetup ending

/-- A failure does nothing to the backend. -/
theorem Move.Alike.fail (h : m.Alike m') (setup setup' : Setup σ) (error : ConnectionError) :
    (m.finish setup (.failed error)).Alike (m'.finish setup' (.failed error)) := by
  unfold Move.finish
  rw [h.link, h.trace]
  exact ⟨rfl, rfl⟩

theorem Move.Alike.expire (h : m.Alike m') (hlimit : setup.readTimeout = setup'.readTimeout)
    (now : Nat) : (m.expire setup now).Alike (m'.expire setup' now) := by
  rw [Move.expire_eq_settle, Move.expire_eq_settle, ← hlimit, h.link]
  cases hexpiry : expiry? setup.readTimeout now m'.link.waitingSince with
  | none => exact h
  | some ending =>
      obtain ⟨limit, -, -, rfl⟩ := expiry?_eq_some.mp hexpiry
      exact h.fail setup setup' _

theorem Move.Alike.read [Injection.Steady setup.context.backend]
    (hsetup : setup.SameButClock setup') (h : m.Alike m') (now : Nat) (d : Delivery) :
    (m.read setup now d).Alike (m'.read setup' now d) := by
  obtain ⟨hstate, htrace⟩ := Connection.receive_steady hsetup.context m.backend m'.backend
    m'.link.state d.data
  unfold Move.read Move.receive
  dsimp only
  rw [h.link, h.trace]
  split
  · exact ⟨rfl, rfl⟩
  · exact ⟨by simp only [hstate], by simp only [htrace]⟩

theorem Move.Alike.deliver [Injection.Steady setup.context.backend]
    (hsetup : setup.SameButClock setup') (h : m.Alike m') (now : Nat) (d : Delivery) :
    (m.deliver setup now d).Alike (m'.deliver setup' now d) := by
  have hread := h.read hsetup now d
  rw [Move.deliver_eq_settle, Move.deliver_eq_settle, ← hsetup.readTimeout, hread.link]
  exact hread.settle hsetup _

/-! ## One step in two sessions -/

theorem Report.only_append (a b : Report) (id : Nat) :
    (a ++ b).only id = a.only id ++ b.only id := by
  show Report.mk _ _ = Report.mk _ _
  rw [Report.mk.injEq]
  exact ⟨List.filter_append .., List.filter_append ..⟩

/-- The report of one connection says all of it to whoever looks at that one, and nothing to
others. -/
theorem Move.only_report (m : Move σ) (id other : Nat) :
    (m.report other).only id = if other == id then m.report other else {} := by
  unfold Move.report Report.only Links.only
  cases m.link.isOpen <;> cases h : other == id <;> simp [h]

/-- Letting the waits of all connections expire lets that of one expire. -/
theorem expireAll_only (hlimit : setup.readTimeout = setup'.readTimeout) (id now : Nat)
    (backend backend' : σ) (links : Links) :
    (expireAll setup' now backend' (links.only id)).2 =
      ((expireAll setup now backend links).2.1.only id,
        (expireAll setup now backend links).2.2.only id) := by
  induction links generalizing backend backend' with
  | nil => rfl
  | cons l links ih =>
      obtain ⟨other, link⟩ := l
      have hmove := (Move.Alike.start backend backend' link).expire hlimit now
      rw [Links.only_cons]
      cases hopen : link.isOpen with
      | true =>
          rw [expireAll_open hopen]
          simp only [Links.only_cons, Report.only_append, Move.only_report]
          split
          next hid =>
              rw [expireAll_open hopen]
              simp only [ih (Move.expire setup now { backend, link }).backend, hmove.link,
                hmove.report other]
          next hid =>
              simp only [ih (Move.expire setup now { backend, link }).backend, Report.empty_append]
      | false =>
          rw [expireAll_ended hopen]
          simp only [Links.only_cons]
          split
          next hid => simp only [expireAll_ended hopen, ih backend]
          next hid => exact ih backend backend'

/-- Whether a session of one connection is what another session shows of that connection. -/
structure Sees (id : Nat) (s s' : Session σ) : Prop where
  ordered : s.links.Ordered
  now : s'.now = s.now
  links : s'.links = s.links.only id

namespace Sees

variable {id : Nat} {s s' : Session σ} {step : Step}

theorem get? (h : Sees id s s') : s'.links.get? id = s.links.get? id := by
  rw [h.links, Links.get?_only h.ordered]

/-- A step for another connection is not noticed. -/
theorem step_other (h : Sees id s s') (setup : Setup σ) (hstep : step.concerns id = false) :
    Sees id (s.step setup step).1 s' ∧ (s.step setup step).2.only id = {} := by
  cases step with
  | advance millis => cases hstep
  | deliver other d =>
      have hne : id ≠ other := Ne.symm (beq_eq_false_iff_ne.mp hstep)
      have hordered := step_ordered h.ordered setup (.deliver other d)
      unfold Session.step deliver at hordered ⊢
      dsimp only at hordered ⊢
      split
      next hopen =>
          rw [if_pos hopen] at hordered
          refine ⟨⟨hordered, h.now, ?_⟩, ?_⟩
          · rw [Links.only_put_other h.ordered hne]
            exact h.links
          · rw [Move.only_report, beq_eq_false_iff_ne.mpr (Ne.symm hne)]
            rfl
      next => exact ⟨h, rfl⟩

/-- Any other step does the same to the connection when it is alone. -/
theorem step_concerns [Injection.Steady setup.context.backend]
    (hsetup : setup.SameButClock setup') (h : Sees id s s') (hstep : step.concerns id = true) :
    Sees id (s.step setup step).1 (s'.step setup' step).1 ∧
      (s'.step setup' step).2 = (s.step setup step).2.only id := by
  have hordered := step_ordered h.ordered setup step
  cases step with
  | advance millis =>
      have hexpire :=
        expireAll_only hsetup.readTimeout id (s.now + millis) s.backend s'.backend s.links
      unfold Session.step advance at hordered ⊢
      rw [h.now, h.links]
      exact ⟨⟨hordered, rfl, congrArg Prod.fst hexpire⟩, congrArg Prod.snd hexpire⟩
  | deliver other d =>
      obtain rfl : other = id := beq_iff_eq.mp hstep
      have hmove := (Move.Alike.start s.backend s'.backend
        ((s.links.get? other).getD { waitingSince := s.now })).deliver hsetup s.now d
      unfold Session.step deliver at hordered ⊢
      dsimp only at hordered ⊢
      rw [h.get?, h.now]
      split
      next hopen =>
          rw [if_pos hopen] at hordered
          refine ⟨⟨hordered, rfl, ?_⟩, ?_⟩
          · rw [Links.only_put_self h.ordered, h.links, hmove.link]
          · rw [Move.only_report, beq_self_eq_true, if_pos rfl, hmove.report other]
      next => exact ⟨h, rfl⟩

end Sees

/-! ## Whole scripts -/

theorem Report.only_only (r : Report) (id : Nat) : (r.only id).only id = r.only id := by
  simp [Report.only, Links.only]

theorem Report.calls_only (r : Report) (id : Nat) :
    (r.only id).calls = r.calls.filter fun c => c.1 == id := by
  obtain ⟨traces, ended⟩ := r
  simp only [calls, only]
  induction traces with
  | nil => rfl
  | cons t traces ih =>
      have hown : (t.2.calls.map (t.1, ·)).filter (fun c => c.1 == id) =
          if t.1 == id then t.2.calls.map (t.1, ·) else [] := by
        cases hid : t.1 == id with
        | true => exact List.filter_eq_self.mpr (by simp_all)
        | false => exact List.filter_eq_nil_iff.mpr (by simp_all)
      rw [List.flatMap_cons, List.filter_append, ← ih, List.filter_cons, hown]
      cases t.1 == id <;> rfl

variable {id : Nat} {s s' : Session σ}

/-- A connection in a session and alone, step by step. -/
theorem run_glances [Injection.Steady setup.context.backend] (hsetup : setup.SameButClock setup')
    (h : Sees id s s') (steps : List Step) :
    (s.run setup steps).map (glance id) =
      withPauses id (s.links.get? id) steps
        ((s'.run setup' (steps.filter (Step.concerns id))).map (glance id)) := by
  induction steps generalizing s s' with
  | nil => rfl
  | cons step steps ih =>
      rw [run_cons, List.map_cons]
      cases hstep : step.concerns id with
      | true =>
          obtain ⟨hnext, hreport⟩ := h.step_concerns hsetup hstep
          have hglance : glance id (s'.step setup' step) = glance id (s.step setup step) := by
            unfold glance
            rw [hnext.get?, hreport, Report.only_only]
          rw [List.filter_cons_of_pos hstep, run_cons, List.map_cons, withPauses_concerns hstep,
            hglance, ih hnext]
          rfl
      | false =>
          obtain ⟨hnext, hreport⟩ := h.step_other setup hstep
          have hlink : (s.step setup step).1.links.get? id = s.links.get? id := by
            rw [← hnext.get?, h.get?]
          have hglance : glance id (s.step setup step) = ⟨s.links.get? id, {}⟩ := by
            unfold glance
            rw [hlink, hreport]
          rw [List.filter_cons_of_neg (by simp [hstep]), withPauses_other hstep, hglance, ih hnext,
            hlink]

/-- The calls of a connection in a session are those that it makes alone. -/
theorem run_ownCalls [Injection.Steady setup.context.backend] (hsetup : setup.SameButClock setup')
    (h : Sees id s s') (steps : List Step) :
    (calls (s.run setup steps)).filter (fun c => c.1 == id) =
      calls (s'.run setup' (steps.filter (Step.concerns id))) := by
  induction steps generalizing s s' with
  | nil => rfl
  | cons step steps ih =>
      rw [run_cons, calls_cons, List.filter_append, ← Report.calls_only]
      cases hstep : step.concerns id with
      | true =>
          obtain ⟨hnext, hreport⟩ := h.step_concerns hsetup hstep
          rw [List.filter_cons_of_pos hstep, run_cons, calls_cons, hreport, ih hnext]
      | false =>
          obtain ⟨hnext, hreport⟩ := h.step_other setup hstep
          rw [List.filter_cons_of_neg (by simp [hstep]), hreport]
          exact ih hnext

/-! ## The shared backend -/

/-- A move that goes on from another.  The backend was handed what is new in its trace. -/
def Move.GoesOn (setup : Setup σ) (m m' : Move σ) : Prop :=
  ∃ t : Trace, m'.trace = m.trace ++ t ∧
    m'.backend = setup.context.backend.after m.backend t.calls

namespace Move.GoesOn

variable {m m' m'' : Move σ}

theorem refl (setup : Setup σ) (m : Move σ) : GoesOn setup m m :=
  ⟨{}, (Trace.append_empty m.trace).symm, rfl⟩

theorem trans (h : GoesOn setup m m') (h' : GoesOn setup m' m'') : GoesOn setup m m'' := by
  obtain ⟨t, htrace, hbackend⟩ := h
  obtain ⟨t', htrace', hbackend'⟩ := h'
  refine ⟨t ++ t', ?_, ?_⟩
  · rw [htrace', htrace, Trace.append_assoc]
  · rw [hbackend', hbackend, Trace.calls_append, Injection.Backend.after_append]

theorem finish (setup : Setup σ) (m : Move σ) (ending : Connection.StreamEnd) :
    GoesOn setup m (m.finish setup ending) :=
  ⟨_, rfl, Connection.finish_after setup.context m.backend m.link.state ending _⟩

theorem settle (setup : Setup σ) (m : Move σ) (ending? : Option Connection.StreamEnd) :
    GoesOn setup m (m.settle setup ending?) := by
  cases ending? with
  | none => exact refl setup m
  | some ending => exact finish setup m ending

theorem expire (setup : Setup σ) (now : Nat) (m : Move σ) :
    GoesOn setup m (m.expire setup now) := by
  rw [Move.expire_eq_settle]
  exact settle setup m _

theorem read (setup : Setup σ) (now : Nat) (m : Move σ) (d : Delivery) :
    GoesOn setup m (m.read setup now d) := by
  unfold Move.read Move.receive
  split
  · exact ⟨{}, (Trace.append_empty m.trace).symm, rfl⟩
  · exact ⟨_, rfl, Connection.handleLines_after setup.context m.backend m.link.state _ _⟩

theorem deliver (setup : Setup σ) (now : Nat) (m : Move σ) (d : Delivery) :
    GoesOn setup m (m.deliver setup now d) := by
  rw [Move.deliver_eq_settle]
  exact trans (read setup now m d) (settle setup _ _)

/-- What a connection did in a step is what the backend was handed. -/
theorem report {backend : σ} {link : Link} (h : GoesOn setup { backend, link } m) (id : Nat) :
    m.backend = setup.context.backend.after backend ((m.report id).calls.map Prod.snd) := by
  obtain ⟨t, htrace, hbackend⟩ := h
  rw [hbackend, Report.calls, Move.report, htrace]
  simp [Function.comp_def]

end Move.GoesOn

theorem expireAll_after (setup : Setup σ) (now : Nat) (backend : σ) (links : Links) :
    (expireAll setup now backend links).1 =
      setup.context.backend.after backend
        ((expireAll setup now backend links).2.2.calls.map Prod.snd) := by
  induction links generalizing backend with
  | nil => rfl
  | cons l links ih =>
      obtain ⟨id, link⟩ := l
      cases hopen : link.isOpen with
      | true =>
          have hmove := (Move.GoesOn.expire setup now { backend, link }).report id
          rw [expireAll_open hopen]
          simp only [Report.calls_append, List.map_append, Injection.Backend.after_append, ← hmove]
          exact ih _
      | false =>
          rw [expireAll_ended hopen]
          exact ih backend

/-- A step moves the backend by the calls that the connections made in it. -/
theorem step_after (setup : Setup σ) (s : Session σ) (step : Step) :
    (s.step setup step).1.backend =
      setup.context.backend.after s.backend ((s.step setup step).2.calls.map Prod.snd) := by
  cases step with
  | advance millis => exact expireAll_after setup (s.now + millis) s.backend s.links
  | deliver id d =>
      unfold Session.step deliver
      dsimp only
      split
      · exact (Move.GoesOn.deliver setup s.now _ d).report id
      · rfl

/-- A script moves the backend by the calls that the connections made in it, in order. -/
theorem run_after (setup : Setup σ) (s : Session σ) (steps : List Step) :
    (last s (s.run setup steps)).backend =
      setup.context.backend.after s.backend ((calls (s.run setup steps)).map Prod.snd) := by
  induction steps generalizing s with
  | nil => rfl
  | cons step steps ih =>
      rw [run_cons, last_cons, ih, step_after, calls_cons, List.map_append,
        Injection.Backend.after_append]

/-! ## Apart -/

theorem Sees.initial (id : Nat) (backend backend' : σ) :
    Sees id (initial backend) (Session.initial backend') :=
  ⟨.nil, rfl, rfl⟩

/-- With a steady backend a connection does the same in a session and in the session that is left of
it without the steps for other connections, whatever state the backend starts in and whenever the
lines are received there.  It makes the same calls and the same records in the same steps, stands at
the same place after each of them and does nothing in the others.  The calls of the session are
those of the connections, each list in its own order, and they are what the backend was handed. -/
theorem run_apart (setup : Setup σ) [Injection.Steady setup.context.backend] (start start' : σ)
    (clock : Nat → Float) (steps : List Step) :
    let setup' : Setup σ := { setup with context := { setup.context with clock } }
    let whole := (initial start).run setup steps
    let alone := fun id => (initial start').run setup' (steps.filter (Step.concerns id))
    (∀ id, whole.map (glance id) = withPauses id none steps ((alone id).map (glance id))) ∧
      (∀ id, ((calls whole).filter fun c => c.1 == id) = calls (alone id)) ∧
      (last (initial start) whole).backend =
        setup.context.backend.after start ((calls whole).map Prod.snd) := by
  have hsetup : setup.SameButClock { setup with context := { setup.context with clock } } :=
    ⟨⟨rfl, rfl⟩, rfl⟩
  exact ⟨fun id => run_glances hsetup (Sees.initial id start start') steps,
    fun id => run_ownCalls hsetup (Sees.initial id start start') steps,
    run_after setup (initial start) steps⟩

/-- Two connections.  The first one pauses within a line, and the second one falls silent within a
line that is too long. -/
def twoConnections : List Step :=
  let sleep := Utf8.encode (Event.line ⟨0, .system .sleep⟩)
  let move := Utf8.encode (Event.line ⟨0, .trackpad .move 1 0⟩)
  [ .deliver 1 { data := sleep.take 20 },
    .deliver 2 { data := move },
    .advance 50,
    .deliver 2 { data := List.replicate 90 0x7B, failShutdown := true },
    .deliver 1 { data := sleep.drop 20, close := true },
    .advance 120 ]

/-- The first one makes its call after the second one did, and no other. -/
theorem run_apart_two :
    Injection.Steady shortSetup.context.backend ∧
      (calls ((initial []).run shortSetup twoConnections)).filter (fun c => c.1 == 1) =
        [(1, .system .sleep)] ∧
      (last (initial []) ((initial []).run shortSetup twoConnections)).backend =
        [.trackpad .move 1 0, .system .sleep] := by
  have hsteady : Injection.Steady shortSetup.context.backend :=
    inferInstanceAs (Injection.Steady Injection.recording)
  obtain ⟨-, hown, hbackend⟩ := run_apart shortSetup [] [] (fun _ => 0) twoConnections
  exact ⟨hsteady, (hown 1).trans (by decide +kernel), hbackend.trans (by decide +kernel)⟩

end RemoteInput.Session
