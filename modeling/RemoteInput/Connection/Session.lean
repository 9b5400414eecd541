import RemoteInput.Connection.Handler

/-!
# Sessions of several connections

A session is a script for any number of connections that share one backend.  A
step of the script delivers something to one connection, or moves the clock.
After each step every connection that can go on does so.

A connection starts when it is first mentioned.  Its wait for data starts then
and starts again with every delivery that is not empty.  With a read timeout it
ends once it has waited that long, and a timeout of zero ends every wait at
once.  What is sent to a connection that has ended is never read.

Connections are kept in ascending order of their numbers.
-/

namespace RemoteInput

namespace Session

/-! ## Scripts -/

/-- What a step delivers to a connection, in this order. -/
structure Delivery where
  /-- From now on the shutdown of the stream fails. -/
  failShutdown : Bool := false
  /-- Bytes to read. -/
  data : Bytes := []
  /-- The error of the read after that. -/
  error : Option IoError := none
  /-- Whether the stream then ends. -/
  close : Bool := false

/-- A step of a script. -/
inductive Step where
  /-- Delivers something to a connection. -/
  | deliver (id : Nat) (delivery : Delivery)
  /-- Moves the clock by a number of milliseconds. -/
  | advance (millis : Nat)

/-! ## States -/

/-- A connection of a session. -/
structure Link where
  /-- Where it stands. -/
  state : Connection.State := {}
  /-- When it began to wait for data. -/
  waitingSince : Nat
  /-- Whether its shutdown will fail. -/
  shutdownFails : Bool := false
  /-- How often its stream was shut down. -/
  shutdowns : Nat := 0
  /-- Its summary, once it has ended. -/
  summary : Option Summary := none
  deriving DecidableEq

/-- Whether a connection goes on. -/
def Link.isOpen (link : Link) : Bool := link.summary.isNone

/-- The connections of a session with their numbers. -/
abbrev Links := List (Nat × Link)

/-- The connection of a number. -/
def Links.get? (links : Links) (id : Nat) : Option Link := List.lookup id links

/-- Puts a connection in its place. -/
def Links.put (id : Nat) (link : Link) : Links → Links
  | [] => [(id, link)]
  | (other, l) :: rest =>
    if id < other then (id, link) :: (other, l) :: rest
    else if id = other then (id, link) :: rest
    else (other, l) :: Links.put id link rest

/-- What stays the same in a session. -/
structure Setup (σ : Type) where
  /-- The backend, the limit and the clock. -/
  context : Connection.Context σ
  /-- The longest silence. -/
  readTimeout : Option Duration

end Session

/-- A session after some steps. -/
structure Session (σ : Type) where
  /-- The time, in milliseconds. -/
  now : Nat := 0
  /-- The state of the backend. -/
  backend : σ
  /-- The connections. -/
  links : Session.Links := []

namespace Session

variable {σ : Type}

/-- What a step brings about. -/
structure Report where
  /-- What the connections did, each with the number of the connection. -/
  traces : List (Nat × Trace) := []
  /-- The connections that ended. -/
  ended : Links := []

/-- Everything that was done in a step. -/
def Report.trace (report : Report) : Trace := (report.traces.map Prod.snd).foldl (· ++ ·) {}

/-! ## One connection -/

/-- A connection that moves on, with the state of the backend and what was done. -/
structure Move (σ : Type) where
  /-- The state of the backend. -/
  backend : σ
  /-- The connection. -/
  link : Link
  /-- What was done. -/
  trace : Trace := {}

/-- The error of a shutdown that fails. -/
def shutdownError : IoError := ⟨.other, "already gone"⟩

/-- Ends a connection. -/
def Move.finish (setup : Setup σ) (m : Move σ) (ending : Connection.StreamEnd) : Move σ :=
  let shutdown := if m.link.shutdownFails then .error shutdownError else .ok ()
  let (backend, summary, trace) :=
    Connection.finish setup.context m.backend m.link.state ending shutdown
  { backend
    link := { m.link with
      shutdowns := m.link.shutdowns + 1
      summary := some summary }
    trace := m.trace ++ trace }

/-- Ends a connection that has waited too long. -/
def Move.expire (setup : Setup σ) (now : Nat) (m : Move σ) : Move σ :=
  match setup.readTimeout with
  | none => m
  | some limit =>
    if limit.millis ≤ now - m.link.waitingSince then m.finish setup (.failed (.readTimeout limit))
    else m

/-- Takes in data. -/
def Move.receive (setup : Setup σ) (now : Nat) (m : Move σ) (data : Bytes) : Move σ :=
  if data.isEmpty then m
  else
    let p := Connection.receive setup.context m.backend m.link.state data
    { backend := p.backend
      link := { m.link with state := p.state, waitingSince := now }
      trace := m.trace ++ p.trace }

/-- Takes in a delivery to an open connection. -/
def Move.deliver (setup : Setup σ) (now : Nat) (m : Move σ) (d : Delivery) : Move σ :=
  let link := { m.link with shutdownFails := m.link.shutdownFails || d.failShutdown }
  let m := Move.receive setup now { m with link } d.data
  match d.error with
  | some e => m.finish setup (.failed (.io e))
  | none => if d.close then m.finish setup .closed else m.expire setup now

/-! ## All connections -/

/-- The report of one connection that moved. -/
def Move.report (m : Move σ) (id : Nat) : Report where
  traces := [(id, m.trace)]
  ended := if m.link.isOpen then [] else [(id, m.link)]

/-- Delivers something to a connection, which starts if it is new. -/
def deliver (setup : Setup σ) (s : Session σ) (id : Nat) (d : Delivery) : Session σ × Report :=
  let link := (s.links.get? id).getD { waitingSince := s.now }
  if link.isOpen then
    let m := Move.deliver setup s.now { backend := s.backend, link } d
    ({ s with backend := m.backend, links := s.links.put id m.link }, m.report id)
  else (s, {})

/-- Ends the open connections that have waited too long. -/
def expireAll (setup : Setup σ) (now : Nat) (backend : σ) : Links → σ × Links × Report
  | [] => (backend, [], {})
  | (id, link) :: rest =>
    if link.isOpen then
      let m := Move.expire setup now { backend, link }
      let (backend, links, report) := expireAll setup now m.backend rest
      let first := m.report id
      (backend, (id, m.link) :: links, ⟨first.traces ++ report.traces, first.ended ++ report.ended⟩)
    else
      let (backend, links, report) := expireAll setup now backend rest
      (backend, (id, link) :: links, report)

/-- Moves the clock. -/
def advance (setup : Setup σ) (s : Session σ) (millis : Nat) : Session σ × Report :=
  let now := s.now + millis
  let (backend, links, report) := expireAll setup now s.backend s.links
  ({ now, backend, links }, report)

/-- Takes one step of a script. -/
def step (setup : Setup σ) (s : Session σ) : Step → Session σ × Report
  | .deliver id d => s.deliver setup id d
  | .advance millis => s.advance setup millis

/-- Runs a script.  Gives the session after each step with the report of the step. -/
def run (setup : Setup σ) (s : Session σ) : List Step → List (Session σ × Report)
  | [] => []
  | step :: steps =>
    let (next, report) := s.step setup step
    (next, report) :: next.run setup steps

/-- The numbers of the connections that go on. -/
def openIds (s : Session σ) : List Nat := (s.links.filter (·.2.isOpen)).map Prod.fst

end Session

end RemoteInput
