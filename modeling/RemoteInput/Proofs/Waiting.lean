import RemoteInput.Proofs.Moves

/-!
# How long a connection may be silent

Since when a connection waits for data can be told from the script alone.  It is
the time of the last delivery to it that was its first or was not empty
(`waitOf`).  Whether the bytes ended a line plays no part, nor does it whether
they belong to a line that is too long.

An open connection has waited since then, and not as long as the read timeout
(`after_waits`).  In the next step it goes on to wait, or the timeout or something
else ends it (`Outcome`).  So a wait that reaches the timeout ends the connection,
and nothing else ends it for silence (`run_timesOut_iff`).
-/

namespace RemoteInput.Session

variable {σ : Type} {setup : Setup σ} {s : Session σ} {id : Nat}

/-! ## What the script says -/

/-- Whether a delivery ends the stream. -/
def Delivery.breaks (d : Delivery) : Bool := d.error.isSome || d.close

/-- Whether a step delivers an error or the end of the stream to a connection. -/
def Step.breaks (id : Nat) : Step → Bool
  | .deliver other d => other == id && d.breaks
  | .advance _ => false

/-- The time after a script, and since when a connection waits for data, if it has started. -/
structure Wait where
  /-- The time, in milliseconds. -/
  now : Nat := 0
  /-- The time of its start or of the last data, whichever is later. -/
  since : Option Nat := none

/-- Goes on with a step of the script. -/
def Wait.next (id : Nat) (w : Wait) : Step → Wait
  | .deliver other d =>
    if other = id ∧ (w.since = none ∨ d.data ≠ []) then { w with since := some w.now } else w
  | .advance millis => { w with now := w.now + millis }

/-- The wait of a connection after a script. -/
def waitOf (id : Nat) (steps : List Step) : Wait := steps.foldl (Wait.next id) {}

theorem waitOf_concat (id : Nat) (steps : List Step) (step : Step) :
    waitOf id (steps ++ [step]) = (waitOf id steps).next id step := by
  rw [waitOf, List.foldl_append]
  rfl

/-- Whether a connection has started and has waited for at least some time. -/
def Wait.Reaches (w : Wait) (limit : Duration) : Prop :=
  ∃ since, w.since = some since ∧ limit.millis ≤ w.now - since

/-- Whether a connection ended because it was silent for some time. -/
def Link.TimedOut (link : Link) (limit : Duration) : Prop :=
  ∃ tally, link.summary = some ⟨tally, .failed (.readTimeout limit)⟩

/-! ## What ends a stream -/

/-- A delivery that ends the stream ends it for no silence. -/
theorem Delivery.ending?_breaks {d : Delivery} (h : d.breaks = true) (limit? : Option Duration)
    (now since : Nat) :
    ∃ ending, d.ending? limit? now since = some ending ∧
      ∀ limit, ending ≠ .failed (.readTimeout limit) := by
  unfold Delivery.ending?
  unfold Delivery.breaks at h
  cases herror : d.error with
  | some e => exact ⟨_, rfl, fun limit => by simp⟩
  | none =>
      have hclose : d.close = true := by simpa [herror] using h
      exact ⟨.closed, by rw [hclose]; rfl, fun limit => by simp⟩

theorem Delivery.ending?_goesOn {d : Delivery} (h : d.breaks = false) (limit? : Option Duration)
    (now since : Nat) : d.ending? limit? now since = expiry? limit? now since := by
  obtain ⟨herror, hclose⟩ := Bool.or_eq_false_iff.mp h
  rw [Option.isSome_eq_false_iff, Option.isNone_iff_eq_none] at herror
  unfold Delivery.ending?
  rw [herror, hclose]
  rfl

theorem Move.timedOut_finish (m : Move σ) (ending : Connection.StreamEnd) (limit : Duration) :
    (m.finish setup ending).link.TimedOut limit ↔ ending = .failed (.readTimeout limit) := by
  unfold Link.TimedOut Move.finish
  cases ending <;> simp [Connection.finish]

/-! ## One step -/

/-- What a step comes to for an open connection, by its wait after the step. -/
inductive Outcome (setup : Setup σ) (id : Nat) (step : Step) (w : Wait) :
    Option Link → Links → Prop where
  /-- It goes on to wait. -/
  | waits {link? : Option Link} (hbreaks : step.breaks id = false)
    (hopen : ∀ link, link? = some link → link.isOpen = true)
    (hsince : w.since = link?.map Link.waitingSince)
    (hshort : ∀ limit, setup.readTimeout = some limit → ¬ w.Reaches limit) :
    Outcome setup id step w link? []
  /-- It ends because it waited too long. -/
  | timesOut {link : Link} {limit : Duration} (hbreaks : step.breaks id = false)
    (hlimit : setup.readTimeout = some limit) (hlong : w.Reaches limit)
    (hended : link.isOpen = false) (hend : ∀ limit', link.TimedOut limit' ↔ limit' = limit) :
    Outcome setup id step w (some link) [(id, link)]
  /-- It ends for something else. -/
  | breaks {link : Link} (hbreaks : step.breaks id = true) (hended : link.isOpen = false)
    (hend : ∀ limit, ¬ link.TimedOut limit) : Outcome setup id step w (some link) [(id, link)]

theorem Outcome.timedOut_iff {step : Step} {w : Wait} {link? : Option Link} {ended : Links}
    (h : Outcome setup id step w link? ended) (limit : Duration) :
    (∃ link, (id, link) ∈ ended ∧ link.TimedOut limit) ↔
      setup.readTimeout = some limit ∧ step.breaks id = false ∧ w.Reaches limit := by
  constructor
  · rintro ⟨link, hmem, htimedOut⟩
    cases h with
    | waits => cases hmem
    | timesOut hbreaks hlimit hlong _ hend =>
        obtain ⟨-, rfl⟩ := Prod.mk.inj (List.mem_singleton.mp hmem)
        obtain rfl := (hend limit).mp htimedOut
        exact ⟨hlimit, hbreaks, hlong⟩
    | breaks _ _ hend =>
        obtain ⟨-, rfl⟩ := Prod.mk.inj (List.mem_singleton.mp hmem)
        exact absurd htimedOut (hend limit)
  · rintro ⟨hlimit, hbreaks, hlong⟩
    cases h with
    | waits _ _ _ hshort => exact absurd hlong (hshort limit hlimit)
    | timesOut _ hlimit' _ _ hend =>
        obtain rfl := Option.some.inj (hlimit.symm.trans hlimit')
        exact ⟨_, List.mem_singleton_self _, (hend _).mpr rfl⟩
    | breaks hbreaks' => cases hbreaks.symm.trans hbreaks'

theorem Outcome.of_expiry (setup : Setup σ) {m : Move σ} {step : Step} {w : Wait}
    (hopen : m.link.isOpen = true) (hbreaks : step.breaks id = false)
    (hsince : w.since = some m.link.waitingSince) :
    let m' := m.settle setup (expiry? setup.readTimeout w.now m.link.waitingSince)
    Outcome setup id step w (some m'.link) (m'.report id).ended := by
  have hreaches : ∀ limit, w.Reaches limit ↔ limit.millis ≤ w.now - m.link.waitingSince := by
    intro limit
    rw [Wait.Reaches, hsince]
    simp
  dsimp only
  cases hexpiry : expiry? setup.readTimeout w.now m.link.waitingSince with
  | none =>
      rw [Move.settle, Move.report, hopen]
      refine .waits hbreaks (fun link hlink => ?_) hsince fun limit hlimit => ?_
      · rw [← Option.some.inj hlink]
        exact hopen
      · rw [hreaches]
        exact expiry?_eq_none.mp hexpiry limit hlimit
  | some ending =>
      obtain ⟨limit, hlimit, hwait, rfl⟩ := expiry?_eq_some.mp hexpiry
      refine .timesOut hbreaks hlimit ((hreaches limit).mpr hwait) rfl fun limit' => ?_
      rw [Move.settle, Move.timedOut_finish]
      simp [eq_comm]

/-- Data restart the wait of a connection, and nothing else does once it has started. -/
theorem Wait.next_deliver {w : Wait} (hnow : s.now = w.now)
    (hsince : w.since = (s.links.get? id).map Link.waitingSince) (d : Delivery) :
    (w.next id (.deliver id d)).now = s.now ∧
      (w.next id (.deliver id d)).since =
        some ((s.found id).read setup s.now d).link.waitingSince := by
  rw [Move.waitingSince_read, Wait.next]
  cases hlink : s.links.get? id with
  | none =>
      rw [hlink, Option.map_none] at hsince
      simp [hsince, hnow, found, Session.link, hlink]
  | some link =>
      rw [hlink, Option.map_some] at hsince
      cases hdata : d.data <;> simp [hsince, hnow, found, link_eq hlink]

/-- What a step comes to for an open connection that has not waited too long. -/
theorem step_outcome {w : Wait} (hordered : s.links.Ordered) (hopen : (s.link id).isOpen = true)
    (hnow : s.now = w.now) (hsince : w.since = (s.links.get? id).map Link.waitingSince)
    (hshort : ∀ limit, setup.readTimeout = some limit → ¬ w.Reaches limit) (step : Step) :
    Outcome setup id step (w.next id step) ((s.step setup step).1.links.get? id)
      ((s.step setup step).2.only id).ended := by
  cases step with
  | deliver other d =>
      by_cases hid : other = id
      · subst hid
        obtain ⟨hnext, hnextSince⟩ := Wait.next_deliver hnow hsince d
        obtain ⟨hlink, hreport⟩ := step_moves hordered (moveOf?_deliver hopen d)
        rw [hlink, hreport, Move.deliver_eq_settle]
        cases hbreaks : d.breaks with
        | true =>
            obtain ⟨ending, hending, hother⟩ := Delivery.ending?_breaks hbreaks setup.readTimeout
              s.now ((s.found other).read setup s.now d).link.waitingSince
            rw [found] at hending
            rw [hending]
            refine .breaks (by simp [Step.breaks, hbreaks]) rfl fun limit htimedOut => ?_
            exact hother limit ((Move.timedOut_finish ..).mp htimedOut)
        | false =>
            have hread : ((s.found other).read setup s.now d).link.isOpen = true :=
              (Move.isOpen_read ..).trans hopen
            have hstep : (Step.deliver other d).breaks other = false := by
              simp [Step.breaks, hbreaks]
            have houtcome := Outcome.of_expiry setup hread hstep hnextSince
            rw [hnext] at houtcome
            rw [Delivery.ending?_goesOn hbreaks]
            exact houtcome
      · obtain ⟨hlink, hreport⟩ := step_rests hordered (moveOf?_deliver_other hid d)
        rw [hlink, hreport, Wait.next, if_neg fun h => hid h.1]
        refine .waits (by simp [Step.breaks, hid]) (fun link hstarted => ?_) hsince hshort
        rw [← link_eq hstarted]
        exact hopen
  | advance millis =>
      cases hstarted : s.links.get? id with
      | none =>
          rw [hstarted, Option.map_none] at hsince
          obtain ⟨hlink, hreport⟩ := step_rests hordered (moveOf?_advance_none hstarted millis)
          rw [hlink, hreport, hstarted]
          refine .waits rfl (fun link hnone => by cases hnone) hsince fun limit _ hreaches => ?_
          obtain ⟨since, hsome, -⟩ := hreaches
          cases hsince.symm.trans hsome
      | some link =>
          rw [link_eq hstarted] at hopen
          rw [hstarted, Option.map_some] at hsince
          obtain ⟨hlink, hreport⟩ := step_moves hordered (moveOf?_advance hstarted hopen millis)
          rw [hlink, hreport, Move.expire_eq_settle, hnow]
          exact Outcome.of_expiry setup hopen rfl hsince

/-! ## Along a script -/

theorem Wait.next_now (id : Nat) (w : Wait) (step : Step) :
    (w.next id step).now = w.now + step.millis := by
  cases step with
  | deliver other d =>
      unfold Wait.next
      dsimp only
      split <;> rfl
  | advance millis => rfl

theorem after_now (setup : Setup σ) (start : σ) (steps : List Step) (id : Nat) :
    (after setup start steps).now = (waitOf id steps).now := by
  induction steps using List.reverseRecOn with
  | nil => rfl
  | append_singleton steps step ih =>
      rw [after_concat, waitOf_concat, step_now, Wait.next_now, ih]

/-- Whether a connection waits as the script says, for less than the timeout. -/
structure Waits (setup : Setup σ) (id : Nat) (steps : List Step) (s : Session σ) : Prop where
  unbroken : ∀ step ∈ steps, step.breaks id = false
  since : (waitOf id steps).since = (s.links.get? id).map Link.waitingSince
  short : ∀ limit, setup.readTimeout = some limit → ¬ (waitOf id steps).Reaches limit

/-- What the next step of a script comes to for a connection that waits. -/
theorem Waits.outcome {start : σ} {steps : List Step}
    (h : Waits setup id steps (after setup start steps))
    (hopen : ((after setup start steps).link id).isOpen = true) (step : Step) :
    ∃ link? ended, ((after setup start steps).step setup step).1.links.get? id = link? ∧
      (((after setup start steps).step setup step).2.only id).ended = ended ∧
      Outcome setup id step (waitOf id (steps ++ [step])) link? ended := by
  rw [waitOf_concat]
  exact ⟨_, _, rfl, rfl, step_outcome (after_ordered setup start steps) hopen
    (after_now setup start steps id) h.since h.short step⟩

/-- In every state that a script reaches, an open connection waits as the script says. -/
theorem after_waits (setup : Setup σ) (start : σ) (steps : List Step) (id : Nat)
    (hopen : ((after setup start steps).link id).isOpen = true) :
    Waits setup id steps (after setup start steps) := by
  induction steps using List.reverseRecOn with
  | nil =>
      refine ⟨List.forall_mem_nil _, rfl, fun limit _ hreaches => ?_⟩
      obtain ⟨since, hnone, -⟩ := hreaches
      cases hnone
  | append_singleton steps step ih =>
      cases hbefore : ((after setup start steps).link id).isOpen with
      | false =>
          rw [link_eq (after_settled hbefore step), hbefore] at hopen
          cases hopen
      | true =>
          rw [after_concat] at hopen ⊢
          obtain ⟨link?, ended, hlink, -, houtcome⟩ := (ih hbefore).outcome hbefore step
          cases houtcome with
          | waits hbreaks _ hsince hshort =>
              refine ⟨fun step' hmem => ?_, hlink ▸ hsince, hshort⟩
              rcases List.mem_append.mp hmem with hmem | hmem
              · exact (ih hbefore).unbroken step' hmem
              · rw [List.mem_singleton.mp hmem]
                exact hbreaks
          | timesOut _ _ _ hended _ =>
              rw [link_eq hlink, hended] at hopen
              cases hopen
          | breaks _ hended _ =>
              rw [link_eq hlink, hended] at hopen
              cases hopen

/-- A connection that was silent for too long reached that time at some point of the script. -/
theorem timedOut_reaches (setup : Setup σ) (start : σ) (steps : List Step) (id : Nat) {link : Link}
    {limit : Duration} (hlink : (after setup start steps).links.get? id = some link)
    (h : link.TimedOut limit) :
    ∃ before, before <+: steps ∧ (waitOf id before).Reaches limit := by
  induction steps using List.reverseRecOn with
  | nil => cases hlink
  | append_singleton steps step ih =>
      cases hbefore : ((after setup start steps).link id).isOpen with
      | false =>
          rw [after_settled hbefore step, ← get?_of_ended hbefore] at hlink
          obtain ⟨before, hprefix, hreaches⟩ := ih hlink
          exact ⟨before, hprefix.trans (List.prefix_append ..), hreaches⟩
      | true =>
          obtain ⟨link?, ended, hlink', -, houtcome⟩ :=
            (after_waits setup start steps id hbefore).outcome hbefore step
          rw [after_concat] at hlink
          rw [hlink] at hlink'
          subst hlink'
          cases houtcome with
          | waits _ hopen _ _ =>
              obtain ⟨tally, hsummary⟩ := h
              have hgoesOn := hopen link rfl
              rw [Link.isOpen, hsummary] at hgoesOn
              cases hgoesOn
          | timesOut _ _ hlong _ hend =>
              obtain rfl := (hend limit).mp h
              exact ⟨_, List.prefix_rfl, hlong⟩
          | breaks _ _ hend => exact absurd h (hend limit)

/-- Without a timeout no wait expires. -/
theorem expireAll_unlimited (h : setup.readTimeout = none) (now : Nat) (backend : σ)
    (links : Links) :
    (expireAll setup now backend links).2.1 = links ∧
      (∀ t ∈ (expireAll setup now backend links).2.2.traces, t.2 = {}) ∧
      (expireAll setup now backend links).2.2.ended = [] := by
  induction links generalizing backend with
  | nil => exact ⟨rfl, List.forall_mem_nil _, rfl⟩
  | cons l links ih =>
      obtain ⟨id, link⟩ := l
      obtain ⟨hlinks, htraces, hended⟩ := ih backend
      cases hopen : link.isOpen with
      | true =>
          have hmove : Move.expire setup now { backend, link } = { backend, link } := by
            rw [Move.expire, h]
          rw [expireAll_open hopen, hmove]
          dsimp only
          refine ⟨by rw [hlinks], ?_, ?_⟩
          · exact List.forall_mem_cons.mpr ⟨rfl, htraces⟩
          · rw [Move.report, hopen]
            exact hended
      | false =>
          rw [expireAll_ended hopen]
          dsimp only
          exact ⟨by rw [hlinks], htraces, hended⟩

theorem Report.mem_only_ended {r : Report} {link : Link} :
    (id, link) ∈ (r.only id).ended ↔ (id, link) ∈ r.ended := by
  simp [Report.only, Links.only]

/-- A connection ends for a silence of some length exactly in a step that finds it open, when that
is the read timeout, no error and no end of the stream was delivered to it so far, and the time
since it started or was last delivered data has reached it.  So an open connection has not waited
that long, and one that was never kept waiting that long does not end so, however long a line takes.
Without a timeout, nothing comes of it when the clock moves. -/
theorem run_timesOut_iff (setup : Setup σ) (start : σ) (steps : List Step) (id : Nat) :
    let s := after setup start steps
    (∀ step limit,
        (∃ link, (id, link) ∈ (s.step setup step).2.ended ∧ link.TimedOut limit) ↔
          setup.readTimeout = some limit ∧ (s.link id).isOpen = true ∧
            (∀ step' ∈ steps ++ [step], step'.breaks id = false) ∧
            (waitOf id (steps ++ [step])).Reaches limit) ∧
      (∀ limit link, setup.readTimeout = some limit → s.links.get? id = some link →
        link.isOpen = true →
          ∃ since, (waitOf id steps).since = some since ∧
            (waitOf id steps).now - since < limit.millis) ∧
      (∀ limit, (∀ before, before <+: steps → ¬ (waitOf id before).Reaches limit) →
        ∀ link, s.links.get? id = some link → ¬ link.TimedOut limit) ∧
      (setup.readTimeout = none → ∀ millis,
        (s.step setup (.advance millis)).1 = { s with now := s.now + millis } ∧
          (∀ t ∈ (s.step setup (.advance millis)).2.traces, t.2 = {}) ∧
          (s.step setup (.advance millis)).2.ended = []) := by
  intro s
  refine ⟨fun step limit => ?_, fun limit link hlimit hlink hopen => ?_,
    fun limit hshort link hlink htimedOut => ?_, fun hnone millis => ?_⟩
  · cases hopen : (s.link id).isOpen with
    | false =>
        have hsettled : (s.step setup step).2.only id = {} :=
          (step_settled (after_ordered setup start steps) hopen step).2
        refine iff_of_false ?_ fun h => Bool.false_ne_true h.2.1
        rintro ⟨link, hmem, -⟩
        rw [← Report.mem_only_ended, hsettled] at hmem
        cases hmem
    | true =>
        have hwaits := after_waits setup start steps id hopen
        obtain ⟨link?, ended, -, hended, houtcome⟩ := hwaits.outcome hopen step
        have hmem : ∀ link, (id, link) ∈ (s.step setup step).2.ended ↔ (id, link) ∈ ended :=
          fun link => hended ▸ Report.mem_only_ended.symm
        simp only [hmem, houtcome.timedOut_iff, List.forall_mem_append, List.forall_mem_singleton]
        exact ⟨fun ⟨hlimit, hbreaks, hlong⟩ => ⟨hlimit, trivial, ⟨hwaits.unbroken, hbreaks⟩, hlong⟩,
          fun ⟨hlimit, _, ⟨_, hbreaks⟩, hlong⟩ => ⟨hlimit, hbreaks, hlong⟩⟩
  · have hwaits := after_waits setup start steps id (link_eq hlink ▸ hopen)
    have hsince := hwaits.since
    rw [hlink, Option.map_some] at hsince
    exact ⟨_, hsince, Nat.lt_of_not_le fun hlong => hwaits.short limit hlimit ⟨_, hsince, hlong⟩⟩
  · obtain ⟨before, hprefix, hreaches⟩ := timedOut_reaches setup start steps id hlink htimedOut
    exact hshort before hprefix hreaches
  · obtain ⟨hlinks, htraces, hended⟩ :=
      expireAll_unlimited hnone (s.now + millis) s.backend s.links
    refine ⟨?_, htraces, hended⟩
    unfold Session.step advance
    dsimp only
    rw [hlinks, expireAll_backend]

/-- A line that is too long arrives slowly, and after it an empty delivery. -/
def slowLine : List Step :=
  let part : Bytes := List.replicate 60 0x7B
  [ .deliver 1 { data := part }, .advance 99, .deliver 1 { data := part }, .advance 99,
    .deliver 1 { data := part }, .advance 60, .deliver 1 {} ]

/-- The line alone takes longer than the timeout.  The connection ends when the time since the last
part of the line has reached it. -/
theorem run_timesOut_iff_slowLine :
    let s := after shortSetup [] slowLine
    (s.link 1).isOpen = true ∧
      (∃ link, (1, link) ∈ (s.step shortSetup (.advance 40)).2.ended ∧ link.TimedOut ⟨100⟩) ∧
      ¬ ∃ link, (1, link) ∈ (s.step shortSetup (.advance 39)).2.ended ∧ link.TimedOut ⟨100⟩ := by
  have hopen : ((after shortSetup [] slowLine).link 1).isOpen = true := by decide +kernel
  obtain ⟨hiff, -⟩ := run_timesOut_iff shortSetup [] slowLine 1
  refine ⟨hopen, (hiff (.advance 40) ⟨100⟩).mpr ⟨rfl, hopen, by decide +kernel, ?_⟩, fun h => ?_⟩
  · exact ⟨198, by decide +kernel, by decide +kernel⟩
  · obtain ⟨-, -, -, since, hsince, hlong⟩ := (hiff (.advance 39) ⟨100⟩).mp h
    have hlast : (waitOf 1 (slowLine ++ [.advance 39])).since = some 198 := by decide +kernel
    obtain rfl := Option.some.inj (hsince.symm.trans hlast)
    exact absurd hlong (by decide +kernel)

end RemoteInput.Session
