import RemoteInput.Proofs.Addresses
import RemoteInput.Proofs.Precedence

/-!
# Why a host does not start

Options are put over the settings of the file, and only then is the address looked at.  So
starting fails in two ways.  The file is not loaded, which no option but the one for its path
can help, or the address that the options leave is none (`resolve_eq_iff`).

What the address of the file is does not matter once an option gives one.  No other setting is
looked at, since each of them has been read as a value of its type by then
(`resolve_fails_iff`).
-/

namespace RemoteInput

namespace Overrides

variable {fs : FileSystem} {env : Environment} {o : Overrides} {file : Settings}
  {cause : ConfigError}

/-- The text of the address that options leave: their own, or else that of the file. -/
def address (o : Overrides) (file : Settings) : String := o.bindAddress.getD file.bindAddress

/-- The configuration of options over settings, at an address. -/
def configuration (o : Overrides) (file : Settings) (ip : IpAddress) : HostConfig where
  bindAddress := ⟨ip, o.port.getD file.port⟩
  limits := ⟨o.maxLineBytes.getD file.maxLineBytes,
    timeoutOf (o.readTimeoutSecs.getD file.readTimeoutSecs)⟩

/-- What options lead to, by what loading the file gave. -/
inductive Outcome (o : Overrides) :
    Except ConfigError Settings → Except ResolveError (Settings × HostConfig) → Prop where
  | notLoaded {cause : ConfigError} : Outcome o (.error cause) (.error (.load cause))
  | noAddress {file : Settings} (h : ∀ ip : IpAddress, ¬ ip.Written (o.address file)) :
    Outcome o (.ok file) (.error (.invalid (.invalidBindAddress (o.address file))))
  | started {file : Settings} {ip : IpAddress} (h : ip.Written (o.address file)) :
    Outcome o (.ok file) (.ok (o.apply file, o.configuration file ip))

/-- Options lead to one of the outcomes. -/
theorem outcome_resolve (fs : FileSystem) (env : Environment) (o : Overrides) :
    o.Outcome (Settings.load fs env o.config) (o.resolve fs env) := by
  unfold resolve
  cases Settings.load fs env o.config with
  | error cause => exact .notLoaded
  | ok file =>
      simp only [toHostConfig_eq, bind, Except.bind, Except.mapError]
      cases hparse : IpAddress.parse? (o.apply file).bindAddress with
      | none => exact .noAddress (IpAddress.parse?_eq_none.mp hparse)
      | some ip => exact .started (IpAddress.parse?_eq_some.mp hparse)

/-- A text is the form of one address at most, so there is one outcome. -/
theorem Outcome.unique {loaded : Except ConfigError Settings}
    {r r' : Except ResolveError (Settings × HostConfig)} (h : o.Outcome loaded r)
    (h' : o.Outcome loaded r') : r = r' := by
  cases h with
  | notLoaded =>
      cases h'
      rfl
  | noAddress h =>
      cases h' with
      | noAddress => rfl
      | started h' => exact absurd h' (h _)
  | started h =>
      cases h' with
      | noAddress h' => exact absurd h (h' _)
      | started h' => rw [h.unique h']

theorem resolve_eq_iff {r : Except ResolveError (Settings × HostConfig)} :
    o.resolve fs env = r ↔ o.Outcome (Settings.load fs env o.config) r :=
  ⟨fun h => h ▸ outcome_resolve fs env o, fun h => (outcome_resolve fs env o).unique h⟩

/-! ## The stages -/

/-- Whether options lead to an error with a message and a cause. -/
def FailsWith (fs : FileSystem) (env : Environment) (o : Overrides) (message : String)
    (cause : ConfigError) : Prop :=
  ∃ e, o.resolve fs env = .error e ∧ e.message = message ∧ e.cause = cause

/-- The message tells the stages apart, so it and the cause are the whole error. -/
theorem failsWith_iff {e : ResolveError} :
    o.FailsWith fs env e.message e.cause ↔ o.resolve fs env = .error e := by
  constructor
  · rintro ⟨e', hresolve, hmessage, hcause⟩
    have hmessages : "failed to load config" ≠ "invalid configuration" := by decide
    cases e with
    | load cause =>
        cases e' with
        | load cause' => rw [hresolve, show cause' = cause from hcause]
        | invalid cause' => exact absurd hmessage.symm hmessages
    | invalid cause =>
        cases e' with
        | load cause' => exact absurd hmessage hmessages
        | invalid cause' => rw [hresolve, show cause' = cause from hcause]
  · intro h
    exact ⟨e, h, rfl, rfl⟩

theorem resolve_eq_load :
    o.resolve fs env = .error (.load cause) ↔ Settings.load fs env o.config = .error cause := by
  rw [resolve_eq_iff]
  constructor
  · intro h
    generalize Settings.load fs env o.config = loaded at h ⊢
    cases h
    rfl
  · intro h
    rw [h]
    exact .notLoaded

theorem resolve_eq_invalid :
    o.resolve fs env = .error (.invalid cause) ↔ ∃ file,
      Settings.load fs env o.config = .ok file ∧
      (∀ ip : IpAddress, ¬ ip.Written (o.address file)) ∧
      cause = .invalidBindAddress (o.address file) := by
  rw [resolve_eq_iff]
  constructor
  · intro h
    generalize Settings.load fs env o.config = loaded at h ⊢
    cases h with
    | noAddress hnone => exact ⟨_, rfl, hnone, rfl⟩
  · rintro ⟨file, hload, hnone, rfl⟩
    rw [hload]
    exact .noAddress hnone

theorem resolve_eq_ok {settings : Settings} {config : HostConfig} :
    o.resolve fs env = .ok (settings, config) ↔ ∃ file ip,
      Settings.load fs env o.config = .ok file ∧ ip.Written (o.address file) ∧
      settings = o.apply file ∧ config = o.configuration file ip := by
  rw [resolve_eq_iff]
  constructor
  · intro h
    generalize Settings.load fs env o.config = loaded at h ⊢
    cases h with
    | started hip => exact ⟨_, _, rfl, hip, rfl, rfl⟩
  · rintro ⟨file, ip, hload, hip, rfl, rfl⟩
    rw [hload]
    exact .started hip

/-- Once the files load, only the address that the options leave has a say in whether there is an
error and in what it is. -/
theorem resolve_eq_error_congr {fs' : FileSystem} {env' : Environment} {o' : Overrides}
    {file' : Settings} (hload : Settings.load fs env o.config = .ok file)
    (hload' : Settings.load fs' env' o'.config = .ok file')
    (haddress : o'.address file' = o.address file) (e : ResolveError) :
    o'.resolve fs' env' = .error e ↔ o.resolve fs env = .error e := by
  cases e with
  | load cause => simp [resolve_eq_load, hload, hload']
  | invalid cause => simp [resolve_eq_invalid, hload, hload', haddress]

/-- Options fail to lead to a configuration in two ways.  Loading fails for the path that was
chosen, and then its error is the cause, whatever the other options are.  Or the file loads and the
text of the address, which is that of the argument, or else of the variable, or else of the file, is
the form of no address, and then the text is the cause.  In all other cases they lead to one.  No
other setting of the options or of the file has a say. -/
theorem resolve_fails_iff (fs : FileSystem) (env : Environment) (o : Overrides) :
    (∀ cause, o.FailsWith fs env "failed to load config" cause ↔
      Settings.load fs env o.config = .error cause) ∧
    (∀ cause, o.FailsWith fs env "invalid configuration" cause ↔ ∃ file,
      Settings.load fs env o.config = .ok file ∧
      (∀ ip : IpAddress, ¬ ip.Written (o.bindAddress.getD file.bindAddress)) ∧
      cause = .invalidBindAddress (o.bindAddress.getD file.bindAddress)) ∧
    (∀ settings config, o.resolve fs env = .ok (settings, config) ↔ ∃ file ip,
      Settings.load fs env o.config = .ok file ∧
      ip.Written (o.bindAddress.getD file.bindAddress) ∧
      settings = o.apply file ∧ config = o.configuration file ip) ∧
    (∀ arguments, parse env arguments = .ok o → ∃ pairs, CommandLine.Written arguments pairs ∧
      o.config = (pairs.lookup .config).or (env.get? "IOBUS_CONFIG") ∧
      o.bindAddress = (pairs.lookup .bind).or (env.get? "IOBUS_BIND")) ∧
    ∀ (fs' : FileSystem) (env' : Environment) (o' : Overrides) (file file' : Settings),
      Settings.load fs env o.config = .ok file → Settings.load fs' env' o'.config = .ok file' →
      o'.bindAddress.getD file'.bindAddress = o.bindAddress.getD file.bindAddress →
      ∀ e, o'.resolve fs' env' = .error e ↔ o.resolve fs env = .error e := by
  refine ⟨fun cause => (failsWith_iff (e := .load cause)).trans resolve_eq_load,
    fun cause => (failsWith_iff (e := .invalid cause)).trans resolve_eq_invalid,
    fun _ _ => resolve_eq_ok, fun arguments h => ?_, fun _ _ _ _ _ => resolve_eq_error_congr⟩
  obtain ⟨pairs, hwritten, -, hholds⟩ := parse_written h
  exact ⟨pairs, hwritten, hholds.config_eq, hholds.bindAddress_eq⟩

/-- A machine with a file whose address is none and with one that is no document. -/
def faultyFiles : FileSystem where
  read path :=
    if path = "/etc/name.toml" then
      .ok (Utf8.encode "[network]\nbind_address = \"localhost\"\nport = 1\n".toList)
    else if path = "/etc/half.toml" then .ok (Utf8.encode "[network".toList)
    else .error ⟨.notFound, "No such file or directory (os error 2)"⟩

/-- An environment without variables. -/
def noVariables : Environment where
  get? := fun _ => none

/-- A name is an error in the file, but not under an address that is given as an option.  It is
an error in an option, too, and no option helps a file that is no document. -/
theorem resolve_fails_iff_faultyFiles :
    let named : Overrides := { config := some "/etc/name.toml" }
    let half : Overrides := { config := some "/etc/half.toml" }
    named.FailsWith faultyFiles noVariables "invalid configuration"
        (.invalidBindAddress "localhost") ∧
      (∃ result, { named with bindAddress := some "::1" : Overrides }.resolve faultyFiles
        noVariables = .ok result) ∧
      (∀ port, { named with bindAddress := some "::1.2.3", port : Overrides }.FailsWith faultyFiles
        noVariables "invalid configuration" (.invalidBindAddress "::1.2.3")) ∧
      ∀ address, { half with bindAddress := address : Overrides }.FailsWith faultyFiles noVariables
        "failed to load config" (.text .notToml) := by
  intro named half
  have hname : Settings.load faultyFiles noVariables (some "/etc/name.toml") =
      .ok { bindAddress := "localhost", port := 1 } := by decide +kernel
  have hhalf : Settings.load faultyFiles noVariables (some "/etc/half.toml") =
      .error (.text .notToml) := by decide +kernel
  have hloopback : IpAddress.parse? "::1" = some (.v6 ⟨[0, 0, 0, 0, 0, 0, 0, 1], rfl⟩) := by
    decide +kernel
  have hlocalhost : IpAddress.parse? "localhost" = none := by decide +kernel
  have hshort : IpAddress.parse? "::1.2.3" = none := by decide +kernel
  obtain ⟨-, hinvalid, -⟩ := resolve_fails_iff faultyFiles noVariables named
  obtain ⟨-, -, hok, -⟩ :=
    resolve_fails_iff faultyFiles noVariables { named with bindAddress := some "::1" }
  refine ⟨(hinvalid _).mpr ⟨_, hname, IpAddress.parse?_eq_none.mp hlocalhost, rfl⟩,
    ⟨_, (hok _ _).mpr ⟨_, _, hname, IpAddress.parse?_eq_some.mp hloopback, rfl, rfl⟩⟩,
    fun port => ?_, fun address => ?_⟩
  · obtain ⟨-, hinvalid, -⟩ :=
      resolve_fails_iff faultyFiles noVariables { named with bindAddress := some "::1.2.3", port }
    exact (hinvalid _).mpr ⟨_, hname, IpAddress.parse?_eq_none.mp hshort, rfl⟩
  · obtain ⟨hload, -⟩ :=
      resolve_fails_iff faultyFiles noVariables { half with bindAddress := address }
    exact (hload _).mpr hhalf

end Overrides

end RemoteInput
