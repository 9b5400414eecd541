import RemoteInput.Connection.Session
import RemoteInput.Injection.Backends

/-!
# Scripts of a session

What the theorems about sessions share: the links of a session as a table, what a
move of a connection is made of, what one step says of all connections, and runs
of scripts that are put together from shorter ones.
-/

namespace RemoteInput.Session

variable {σ : Type}

/-! ## Steps -/

/-- Whether a step has to do with a connection.  The clock moves for all of them. -/
def Step.concerns (id : Nat) : Step → Bool
  | .deliver other _ => other == id
  | .advance _ => true

theorem Step.concerns_deliver (id : Nat) (d : Delivery) : (deliver id d).concerns id = true :=
  beq_self_eq_true id

/-- The bytes that a step delivers. -/
def Step.data : Step → Bytes
  | .deliver _ d => d.data
  | .advance _ => []

/-- The bytes that a script delivers. -/
def received (steps : List Step) : Bytes := steps.flatMap Step.data

/-! ## Links -/

/-- Whether links stand in ascending order of their numbers. -/
def Links.Ordered (links : Links) : Prop := links.Pairwise fun a b => a.1 < b.1

namespace Links

variable {id other : Nat} {link : Link} {links : Links}

theorem get?_cons (id other : Nat) (link : Link) (links : Links) :
    get? ((other, link) :: links) id = if id = other then some link else links.get? id := by
  by_cases h : id = other
  · simp [get?, h]
  · simp [get?, h, List.lookup_cons, beq_eq_false_iff_ne.mpr h]

theorem get?_eq_none (h : ∀ l ∈ links, id < l.1) : links.get? id = none := by
  induction links with
  | nil => rfl
  | cons l links ih =>
      obtain ⟨other, link⟩ := l
      have hhead : id < other := h _ (List.mem_cons_self ..)
      rw [get?_cons, if_neg (by omega), ih fun l hl => h l (List.mem_cons_of_mem _ hl)]

theorem get?_put_self (id : Nat) (link : Link) (links : Links) :
    (links.put id link).get? id = some link := by
  induction links with
  | nil => simp [put, get?_cons]
  | cons l links ih =>
      obtain ⟨other, old⟩ := l
      unfold put
      split
      · simp [get?_cons]
      · split
        · simp [get?_cons]
        next hne => rw [get?_cons, if_neg hne, ih]

theorem get?_put_other (h : id ≠ other) (link : Link) (links : Links) :
    (links.put other link).get? id = links.get? id := by
  induction links with
  | nil => simp [put, get?_cons, h]
  | cons l links ih =>
      obtain ⟨next, old⟩ := l
      unfold put
      split
      · rw [get?_cons, if_neg h]
      · split
        next heq => rw [get?_cons, get?_cons, ← heq, if_neg h, if_neg h]
        next hne => rw [get?_cons, get?_cons, ih]

theorem mem_put {l : Nat × Link} (h : l ∈ links.put id link) : l = (id, link) ∨ l ∈ links := by
  induction links with
  | nil => exact .inl (List.mem_singleton.mp h)
  | cons m links ih =>
      obtain ⟨other, old⟩ := m
      unfold put at h
      split at h
      · exact List.mem_cons.mp h
      · split at h
        · exact (List.mem_cons.mp h).imp_right (List.mem_cons_of_mem _)
        · rcases List.mem_cons.mp h with rfl | h
          · exact .inr (List.mem_cons_self ..)
          · exact (ih h).imp_right (List.mem_cons_of_mem _)

theorem Ordered.put (h : links.Ordered) (id : Nat) (link : Link) : (links.put id link).Ordered := by
  induction links with
  | nil => exact List.pairwise_singleton ..
  | cons l links ih =>
      obtain ⟨other, old⟩ := l
      obtain ⟨hhead, htail⟩ := List.pairwise_cons.mp h
      unfold Links.put
      split
      next hlt =>
          refine List.pairwise_cons.mpr ⟨fun m hm => ?_, h⟩
          rcases List.mem_cons.mp hm with rfl | hm
          · exact hlt
          · exact Nat.lt_trans hlt (hhead m hm)
      next hnot =>
          split
          next heq =>
              subst heq
              exact List.pairwise_cons.mpr ⟨hhead, htail⟩
          next hne =>
              refine List.pairwise_cons.mpr ⟨fun m hm => ?_, ih htail⟩
              rcases mem_put hm with rfl | hm
              · show other < id
                omega
              · exact hhead m hm

end Links

/-! ## The connection of a step -/

/-- The connection that a step finds.  It is new if it was not mentioned before. -/
def link (s : Session σ) (id : Nat) : Link := (s.links.get? id).getD { waitingSince := s.now }

/-- What comes of the shutdown of the stream of a connection. -/
def Link.shutdown (link : Link) : Except IoError Unit :=
  if link.shutdownFails then .error shutdownError else .ok ()

/-! ## Moves

A move lets the wait of a connection expire or delivers something to it.  Either way it ends the
connection at most once, at the very end of the move. -/

/-- What ends the stream of a connection that has waited since some time, if anything does. -/
def expiry? (limit? : Option Duration) (now since : Nat) : Option Connection.StreamEnd :=
  match limit? with
  | none => none
  | some limit =>
    if limit.millis ≤ now - since then some (.failed (.readTimeout limit)) else none

theorem expiry?_eq_some {limit? : Option Duration} {now since : Nat}
    {ending : Connection.StreamEnd} :
    expiry? limit? now since = some ending ↔
      ∃ limit, limit? = some limit ∧ limit.millis ≤ now - since ∧
        ending = .failed (.readTimeout limit) := by
  unfold expiry?
  cases limit? with
  | none => simp
  | some limit =>
      dsimp only
      split
      next h => simp [h, eq_comm]
      next h => simp [h]

theorem expiry?_eq_none {limit? : Option Duration} {now since : Nat} :
    expiry? limit? now since = none ↔
      ∀ limit, limit? = some limit → ¬ limit.millis ≤ now - since := by
  rw [Option.eq_none_iff_forall_ne_some]
  simp only [ne_eq, expiry?_eq_some]
  constructor
  · intro h limit hlimit hwait
    exact h _ ⟨limit, hlimit, hwait, rfl⟩
  · rintro h ending ⟨limit, hlimit, hwait, -⟩
    exact h limit hlimit hwait

/-- What ends the stream of a connection that was delivered something, if anything does. -/
def Delivery.ending? (limit? : Option Duration) (now since : Nat) (d : Delivery) :
    Option Connection.StreamEnd :=
  match d.error with
  | some e => some (.failed (.io e))
  | none => if d.close then some .closed else expiry? limit? now since

namespace Move

variable {setup : Setup σ}

/-- Takes in what a delivery brings before the stream ends, if it does. -/
def read (setup : Setup σ) (now : Nat) (m : Move σ) (d : Delivery) : Move σ :=
  let link := { m.link with shutdownFails := m.link.shutdownFails || d.failShutdown }
  Move.receive setup now { m with link } d.data

/-- Ends a connection, if there is anything that ends it. -/
def settle (setup : Setup σ) (m : Move σ) : Option Connection.StreamEnd → Move σ
  | none => m
  | some ending => m.finish setup ending

theorem expire_eq_settle (m : Move σ) (now : Nat) :
    m.expire setup now = m.settle setup (expiry? setup.readTimeout now m.link.waitingSince) := by
  unfold Move.expire expiry?
  cases setup.readTimeout with
  | none => rfl
  | some limit =>
      dsimp only
      split <;> rfl

theorem deliver_eq_settle (m : Move σ) (now : Nat) (d : Delivery) :
    m.deliver setup now d =
      (m.read setup now d).settle setup
        (d.ending? setup.readTimeout now (m.read setup now d).link.waitingSince) := by
  unfold Move.deliver Delivery.ending?
  cases d.error with
  | some e => rfl
  | none =>
      dsimp only
      split
      · rfl
      · exact expire_eq_settle ..

theorem isOpen_read (m : Move σ) (now : Nat) (d : Delivery) :
    (m.read setup now d).link.isOpen = m.link.isOpen := by
  unfold read Move.receive
  split <;> rfl

theorem shutdowns_read (m : Move σ) (now : Nat) (d : Delivery) :
    (m.read setup now d).link.shutdowns = m.link.shutdowns := by
  unfold read Move.receive
  split <;> rfl

/-- Only bytes restart the wait. -/
theorem waitingSince_read (m : Move σ) (now : Nat) (d : Delivery) :
    (m.read setup now d).link.waitingSince =
      if d.data.isEmpty then m.link.waitingSince else now := by
  unfold read Move.receive
  split <;> rfl

end Move

/-! ## Reports -/

/-- The inputs that the connections handed to the backend, each with the number of its
connection. -/
def Report.calls (report : Report) : List (Nat × Input) :=
  report.traces.flatMap fun t => t.2.calls.map (t.1, ·)

instance : Append Report := ⟨fun a b => ⟨a.traces ++ b.traces, a.ended ++ b.ended⟩⟩

theorem Report.empty_append (r : Report) : ({} : Report) ++ r = r := rfl

theorem Report.append_empty (r : Report) : r ++ ({} : Report) = r := by
  show Report.mk _ _ = r
  rw [List.append_nil, List.append_nil]

theorem Report.calls_append (a b : Report) : (a ++ b).calls = a.calls ++ b.calls :=
  List.flatMap_append

theorem Move.trace_report (m : Move σ) (id : Nat) : (m.report id).trace = m.trace :=
  Trace.empty_append m.trace

/-! ## One step -/

theorem deliver_open {s : Session σ} {id : Nat} (h : (s.link id).isOpen = true) (setup : Setup σ)
    (d : Delivery) :
    s.deliver setup id d =
      let m := Move.deliver setup s.now { backend := s.backend, link := s.link id } d
      ({ s with backend := m.backend, links := s.links.put id m.link }, m.report id) :=
  if_pos h

theorem deliver_ended {s : Session σ} {id : Nat} (h : (s.link id).isOpen = false)
    (setup : Setup σ) (d : Delivery) : s.deliver setup id d = (s, {}) :=
  if_neg (Bool.eq_false_iff.mp h)

theorem expireAll_open {link : Link} (h : link.isOpen = true) (setup : Setup σ) (now : Nat)
    (backend : σ) (id : Nat) (rest : Links) :
    expireAll setup now backend ((id, link) :: rest) =
      let m := Move.expire setup now { backend, link }
      let r := expireAll setup now m.backend rest
      (r.1, (id, m.link) :: r.2.1, m.report id ++ r.2.2) := by
  rw [expireAll, if_pos h]
  rfl

theorem expireAll_ended {link : Link} (h : link.isOpen = false) (setup : Setup σ) (now : Nat)
    (backend : σ) (id : Nat) (rest : Links) :
    expireAll setup now backend ((id, link) :: rest) =
      let r := expireAll setup now backend rest
      (r.1, (id, link) :: r.2.1, r.2.2) := by
  rw [expireAll, h]
  rfl

theorem expireAll_keys (setup : Setup σ) (now : Nat) (backend : σ) (links : Links) :
    (expireAll setup now backend links).2.1.map Prod.fst = links.map Prod.fst := by
  induction links generalizing backend with
  | nil => rfl
  | cons l links ih =>
      obtain ⟨id, link⟩ := l
      cases hopen : link.isOpen with
      | true =>
          rw [expireAll_open hopen]
          simp only [List.map_cons, ih]
      | false =>
          rw [expireAll_ended hopen]
          simp only [List.map_cons, ih]

theorem step_ordered {s : Session σ} (h : s.links.Ordered) (setup : Setup σ) (step : Step) :
    (s.step setup step).1.links.Ordered := by
  cases step with
  | deliver id d =>
      unfold Session.step deliver
      dsimp only
      split
      · exact h.put id _
      · exact h
  | advance millis =>
      have hkeys : ∀ links : Links, links.Ordered ↔ (links.map Prod.fst).Pairwise (· < ·) :=
        fun links => List.pairwise_map.symm
      rw [hkeys] at h ⊢
      exact (expireAll_keys setup (s.now + millis) s.backend s.links).symm ▸ h

/-! ## Whole scripts -/

/-- A session without connections. -/
def initial (backend : σ) : Session σ := { backend }

/-- Everything that the connections handed to the backend in a script, each input with the number of
its connection. -/
def calls (rs : List (Session σ × Report)) : List (Nat × Input) := rs.flatMap fun r => r.2.calls

/-- Everything that was done in a script. -/
def trace : List (Session σ × Report) → Trace
  | [] => {}
  | r :: rs => r.2.trace ++ trace rs

/-- The session at the end of a script that ran from a session. -/
def last (s : Session σ) (rs : List (Session σ × Report)) : Session σ :=
  (rs.getLast?.map Prod.fst).getD s

theorem run_cons (setup : Setup σ) (s : Session σ) (step : Step) (steps : List Step) :
    s.run setup (step :: steps) =
      s.step setup step :: (s.step setup step).1.run setup steps := rfl

theorem last_cons (s : Session σ) (r : Session σ × Report) (rs : List (Session σ × Report)) :
    last s (r :: rs) = last r.1 rs := by
  rw [last, last, List.getLast?_cons]
  cases rs.getLast? <;> rfl

theorem run_append (setup : Setup σ) (s : Session σ) (steps steps' : List Step) :
    s.run setup (steps ++ steps') =
      s.run setup steps ++ (last s (s.run setup steps)).run setup steps' := by
  induction steps generalizing s with
  | nil => rfl
  | cons step steps ih => rw [List.cons_append, run_cons, ih, run_cons, last_cons, List.cons_append]

theorem Report.calls_trace (r : Report) : r.trace.calls = r.calls.map Prod.snd := by
  have hfoldl : ∀ (ts : List Trace) (t : Trace),
      (ts.foldl (· ++ ·) t).calls = t.calls ++ ts.flatMap Trace.calls := by
    intro ts
    induction ts with
    | nil => simp
    | cons t' ts ih =>
        intro t
        rw [List.foldl_cons, ih, Trace.calls_append, List.flatMap_cons, List.append_assoc]
  rw [Report.trace, hfoldl, Report.calls]
  simp [List.map_flatMap, List.flatMap_map, Function.comp_def]

theorem calls_cons (r : Session σ × Report) (rs : List (Session σ × Report)) :
    calls (r :: rs) = r.2.calls ++ calls rs := List.flatMap_cons

theorem calls_trace (rs : List (Session σ × Report)) :
    (trace rs).calls = (calls rs).map Prod.snd := by
  induction rs with
  | nil => rfl
  | cons r rs ih =>
      rw [trace, Trace.calls_append, Report.calls_trace, ih, calls_cons, List.map_append]

theorem last_append (s : Session σ) (rs rs' : List (Session σ × Report)) :
    last s (rs ++ rs') = last (last s rs) rs' := by
  induction rs generalizing s with
  | nil => rfl
  | cons r rs ih => rw [List.cons_append, last_cons, ih, last_cons]

theorem trace_append (rs rs' : List (Session σ × Report)) :
    trace (rs ++ rs') = trace rs ++ trace rs' := by
  induction rs with
  | nil => exact (Trace.empty_append _).symm
  | cons r rs ih => rw [List.cons_append, trace, ih, trace, Trace.append_assoc]

/-- A setup with a short limit and a short timeout. -/
def shortSetup : Setup (List Input) where
  context := ⟨Injection.recording, 80, fun _ => 0⟩
  readTimeout := some ⟨100⟩

end RemoteInput.Session
