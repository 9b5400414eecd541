import RemoteInput.Proofs.Basics
import RemoteInput.Proofs.Utf8
import RemoteInput.Settings.Load

/-!
# The file in the default place

The environment names one file at most (`Environment.DefaultFile`), and no other file is looked
at when that one is missing.  `Settings.Refused` says why a file holds no settings: it cannot
be read, it is no text, the text is no document, or a value in the document has the wrong
shape.  A file that is named by the user holds settings or is refused (`read_eq_error`).

The file in the default place is read in the same way.  The defaults stand in for it only
when it does not exist or has no place (`readDefault_of_missing`, `readDefault_of_present`),
and for no other reason (`load_agrees`).
-/

namespace RemoteInput

/-! ## The place -/

/-- What stands between a path and a name below it. -/
def separator (base : String) : String :=
  if base.isEmpty || base.toList.getLast? = some '/' then "" else "/"

theorem joinPath_eq (base name : String) : joinPath base name = base ++ separator base ++ name := by
  unfold joinPath separator
  split
  next hempty => simp [String.isEmpty_iff.mp hempty]
  next hempty => split <;> simp [*]

theorem separator_append (base : String) {name : String} {c : Char}
    (hlast : name.toList.getLast? = some c) (hc : c ≠ '/') : separator (base ++ name) = "/" := by
  have hname : name ≠ "" := by
    rintro rfl
    cases hlast
  simp [separator, List.getLast?_append, hlast, hc, hname]

/-- Two names below a path are one name with a slash in it. -/
theorem joinPath_joinPath (base rest : String) {name : String} {c : Char}
    (hlast : name.toList.getLast? = some c) (hc : c ≠ '/') :
    joinPath (joinPath base name) rest = joinPath base (name ++ "/" ++ rest) := by
  rw [joinPath_eq, joinPath_eq base, separator_append _ hlast hc, joinPath_eq]
  simp only [String.append_assoc]

/-- The file that an environment names: the one in the directory for configuration, or else the one
below the home directory. -/
inductive Environment.DefaultFile (env : Environment) : String → Prop where
  | config {dir : String} (h : env.get? "XDG_CONFIG_HOME" = some dir) :
    env.DefaultFile (joinPath dir "iobus/host.toml")
  | home {dir : String} (hunset : env.get? "XDG_CONFIG_HOME" = none)
    (h : env.get? "HOME" = some dir) : env.DefaultFile (joinPath dir ".config/iobus/host.toml")

theorem Environment.configFile?_eq_some {env : Environment} {path : String} :
    env.configFile? = some path ↔ env.DefaultFile path := by
  have hbelow : ∀ dir, joinPath (joinPath dir "iobus") "host.toml" =
      joinPath dir "iobus/host.toml" :=
    fun dir => joinPath_joinPath dir "host.toml" (c := 's') (by decide) (by decide)
  have hhome : ∀ dir, joinPath (joinPath dir ".config") "iobus/host.toml" =
      joinPath dir ".config/iobus/host.toml" :=
    fun dir => joinPath_joinPath dir "iobus/host.toml" (c := 'g') (by decide) (by decide)
  constructor
  · intro h
    obtain ⟨_, hbase, rfl⟩ := Option.map_eq_some_iff.mp h
    obtain ⟨dir, hdir, rfl⟩ := Option.map_eq_some_iff.mp hbase
    rw [hbelow]
    unfold Environment.userConfigDir? at hdir
    split at hdir
    next hset =>
      obtain rfl := Option.some.inj hdir
      exact .config hset
    next hunset =>
      obtain ⟨home, hhomedir, rfl⟩ := Option.map_eq_some_iff.mp hdir
      rw [hhome]
      exact .home hunset hhomedir
  · intro h
    cases h with
    | config h => simp [Environment.configFile?, Environment.configDir?,
        Environment.userConfigDir?, h, hbelow]
    | home hunset h => simp [Environment.configFile?, Environment.configDir?,
        Environment.userConfigDir?, hunset, h, hbelow, hhome]

theorem Environment.configFile_eq_ok {env : Environment} {path : String} :
    env.configFile = .ok path ↔ env.DefaultFile path := by
  rw [← configFile?_eq_some, configFile]
  cases env.configFile? <;> simp

/-! ## The file -/

namespace FileSystem

/-- Whether there is no file at a path. -/
def Missing (fs : FileSystem) (path : String) : Prop :=
  ∃ e, fs.read path = .error e ∧ e.kind = .notFound

variable {fs : FileSystem} {path : String}

theorem readText_eq_ok {text : List Char} :
    fs.readText path = .ok text ↔ fs.read path = .ok (Utf8.encode text) := by
  unfold readText
  constructor
  · intro h
    obtain ⟨bytes, hread, h⟩ := bind_eq_ok.mp h
    split at h
    next hdecode =>
      cases h
      obtain ⟨_, rfl, hbytes⟩ := Utf8.eq_encode_of_decodeAfter hdecode
      rw [hread, hbytes]
    next => cases h
  · intro h
    rw [h]
    simp [bind, Except.bind, Utf8.decode_encode]

theorem readText_eq_error {e : IoError} : fs.readText path = .error e ↔
    fs.read path = .error e ∨
      ∃ bytes, fs.read path = .ok bytes ∧ ¬ Utf8.IsText bytes ∧ e = .notUtf8 := by
  unfold readText
  rw [bind_eq_error]
  refine or_congr_right (exists_congr fun bytes => and_congr_right fun _ => ?_)
  rw [Utf8.isText_iff_decode]
  cases Utf8.decode bytes with
  | ok text => simp [Except.toOption]
  | error rest => simpa [Except.toOption] using eq_comm

end FileSystem

namespace Settings

variable {fs : FileSystem} {env : Environment} {path : String} {e : ConfigError} {s : Settings}

/-- Why the file at a path holds no settings. -/
inductive Refused (fs : FileSystem) (path : String) : ConfigError → Prop where
  /-- The machine does not give its content. -/
  | unread {e : IoError} (hread : fs.read path = .error e) : Refused fs path (.io path e)
  /-- The content is not UTF-8. -/
  | notText {bytes : Bytes} (hread : fs.read path = .ok bytes) (hbytes : ¬ Utf8.IsText bytes) :
    Refused fs path (.io path .notUtf8)
  /-- The text is no document. -/
  | notToml {text : List Char} (hread : fs.read path = .ok (Utf8.encode text))
    (hparse : Toml.parse? text = none) : Refused fs path (.text .notToml)
  /-- The document has a value of the wrong shape. -/
  | schema {text : List Char} {document : Toml.Entries} {e : SchemaError}
    (hread : fs.read path = .ok (Utf8.encode text)) (hparse : Toml.parse? text = some document)
    (hschema : ofDocument document = .error e) : Refused fs path (.text (.schema e))

theorem ofText_eq_ok {text : List Char} : ofText text = .ok s ↔
    ∃ document, Toml.parse? text = some document ∧ ofDocument document = .ok s := by
  unfold ofText
  cases hparse : Toml.parse? text <;> simp [mapError_eq_ok]

theorem read_eq_ok : Settings.read fs path = .ok s ↔
    ∃ text, fs.readText path = .ok text ∧ ofText text = .ok s := by
  unfold Settings.read
  cases hread : fs.readText path <;> simp [mapError_eq_ok]

theorem ofText_eq_error {text : List Char} {e : SettingsTextError} : ofText text = .error e ↔
    (Toml.parse? text = none ∧ e = .notToml) ∨
      ∃ document cause, Toml.parse? text = some document ∧ ofDocument document = .error cause ∧
        e = .schema cause := by
  unfold ofText
  cases hparse : Toml.parse? text with
  | none => simpa using eq_comm
  | some document =>
      dsimp only
      rw [mapError_eq_error]
      simp [eq_comm]

/-- A file that does not hold settings is refused, and for what is wrong with it. -/
theorem read_eq_error : Settings.read fs path = .error e ↔ Refused fs path e := by
  unfold Settings.read
  constructor
  · intro h
    split at h
    next io hio =>
      obtain rfl := Except.error.inj h
      obtain hread | ⟨bytes, hread, hbytes, rfl⟩ := FileSystem.readText_eq_error.mp hio
      · exact .unread hread
      · exact .notText hread hbytes
    next text htext =>
      have hread := FileSystem.readText_eq_ok.mp htext
      obtain ⟨cause, hcause, rfl⟩ := mapError_eq_error.mp h
      obtain ⟨hparse, rfl⟩ | ⟨document, cause, hparse, hschema, rfl⟩ := ofText_eq_error.mp hcause
      · exact .notToml hread hparse
      · exact .schema hread hparse hschema
  · intro h
    cases h with
    | unread hread => rw [FileSystem.readText_eq_error.mpr (.inl hread)]
    | notText hread hbytes => rw [FileSystem.readText_eq_error.mpr (.inr ⟨_, hread, hbytes, rfl⟩)]
    | notToml hread hparse =>
        rw [FileSystem.readText_eq_ok.mpr hread]
        exact mapError_eq_error.mpr ⟨_, ofText_eq_error.mpr (.inl ⟨hparse, rfl⟩), rfl⟩
    | schema hread hparse hschema =>
        rw [FileSystem.readText_eq_ok.mpr hread]
        exact mapError_eq_error.mpr
          ⟨_, ofText_eq_error.mpr (.inr ⟨_, _, hparse, hschema, rfl⟩), rfl⟩

/-- Only the file itself has a say. -/
theorem read_congr {fs' : FileSystem} (h : fs'.read path = fs.read path) :
    Settings.read fs' path = Settings.read fs path := by
  unfold Settings.read FileSystem.readText
  rw [h]

/-- A missing file in the default place is as good as one without settings. -/
theorem readDefault_of_missing (hpath : env.DefaultFile path) (hmissing : fs.Missing path) :
    readDefault fs env = .ok {} := by
  obtain ⟨e, hread, hkind⟩ := hmissing
  have hrefused := read_eq_error.mpr (Refused.unread hread)
  rw [readDefault, Environment.configFile?_eq_some.mpr hpath]
  simp [hrefused, hkind]

/-- A file in the default place is read as one that is named. -/
theorem readDefault_of_present (hpath : env.DefaultFile path) (hpresent : ¬ fs.Missing path) :
    readDefault fs env = Settings.read fs path := by
  rw [readDefault, Environment.configFile?_eq_some.mpr hpath]
  dsimp only
  split
  next path' io hread =>
    -- The kind is that of an error of the file.
    have hkind : io.kind ≠ .notFound := by
      intro hkind
      cases read_eq_error.mp hread with
      | unread hfile => exact hpresent ⟨io, hfile, hkind⟩
      | notText => cases hkind
    rw [if_neg hkind, hread]
  next => rfl

/-- Without a default place there are only the defaults. -/
theorem readDefault_of_nowhere (hnowhere : ∀ path, ¬ env.DefaultFile path) :
    readDefault fs env = .ok {} := by
  have hnone : env.configFile? = none :=
    Option.eq_none_iff_forall_ne_some.mpr fun path hpath =>
      hnowhere path (Environment.configFile?_eq_some.mp hpath)
  rw [readDefault, hnone]

/-- Loading without a path fails for what is wrong with a file that is there. -/
theorem readDefault_eq_error : readDefault fs env = .error e ↔
    ∃ path, env.DefaultFile path ∧ ¬ fs.Missing path ∧ Refused fs path e := by
  constructor
  · intro h
    by_cases hplace : ∃ path, env.DefaultFile path
    · obtain ⟨path, hpath⟩ := hplace
      by_cases hmissing : fs.Missing path
      · rw [readDefault_of_missing hpath hmissing] at h
        cases h
      · rw [readDefault_of_present hpath hmissing] at h
        exact ⟨path, hpath, hmissing, read_eq_error.mp h⟩
    · rw [readDefault_of_nowhere (not_exists.mp hplace)] at h
      cases h
  · rintro ⟨path, hpath, hpresent, hrefused⟩
    rw [readDefault_of_present hpath hpresent]
    exact read_eq_error.mpr hrefused

/-- The environment names one file at most.  If it names one that is there, loading without a path
is loading from that file, whatever is wrong with the file.  If the file is missing, or none is
named, the settings have their defaults.  A path that is given is the only thing that counts, and
what is wrong with its file is the error. -/
theorem load_agrees (fs : FileSystem) (env : Environment) :
    (∀ path, env.configFile = .ok path ↔ env.DefaultFile path) ∧
    (∀ path, env.DefaultFile path → fs.Missing path → load fs env none = .ok {}) ∧
    (∀ path, env.DefaultFile path → ¬ fs.Missing path →
      load fs env none = load fs env (some path)) ∧
    ((∀ path, ¬ env.DefaultFile path) → load fs env none = .ok {}) ∧
    (∀ e, load fs env none = .error e ↔
      ∃ path, env.DefaultFile path ∧ ¬ fs.Missing path ∧ Refused fs path e) ∧
    ∀ path, (∀ e, load fs env (some path) = .error e ↔ Refused fs path e) ∧
      ∀ (fs' : FileSystem) (env' : Environment), fs'.read path = fs.read path →
        load fs' env' (some path) = load fs env (some path) :=
  ⟨fun _ => Environment.configFile_eq_ok, fun _ => readDefault_of_missing,
    fun _ => readDefault_of_present, readDefault_of_nowhere, fun _ => readDefault_eq_error,
    fun _ => ⟨fun _ => read_eq_error, fun _ _ => read_congr⟩⟩

/-- An environment with a directory for configuration and a home directory. -/
def twoDirectories : Environment where
  get? := fun name => List.lookup name [("XDG_CONFIG_HOME", "/xdg"), ("HOME", "/home/user/")]

/-- A machine whose only file of settings is below the home directory.  Other files fail. -/
def homeFile (e : IoError) : FileSystem where
  read path :=
    if path = "/home/user/.config/iobus/host.toml" then
      .ok (Utf8.encode "[network]\nport = 1\n".toList)
    else .error e

/-- The file below the home directory does not stand in for one that is missing in the other
directory, and the defaults do not stand in for one that may not be read. -/
theorem load_agrees_twoDirectories :
    let denied : IoError := ⟨.permissionDenied, "Permission denied (os error 13)"⟩
    twoDirectories.configFile = .ok "/xdg/iobus/host.toml" ∧
      load (homeFile .notFound) twoDirectories none = .ok {} ∧
      load (homeFile denied) twoDirectories none = .error (.io "/xdg/iobus/host.toml" denied) := by
  intro denied
  have hplace : twoDirectories.DefaultFile "/xdg/iobus/host.toml" :=
    @Environment.DefaultFile.config twoDirectories "/xdg" (by decide)
  obtain ⟨hconfigFile, hmissing, -⟩ := load_agrees (homeFile .notFound) twoDirectories
  obtain ⟨-, -, -, -, herror, -⟩ := load_agrees (homeFile denied) twoDirectories
  refine ⟨(hconfigFile _).mpr hplace, hmissing _ hplace ⟨_, rfl, rfl⟩,
    (herror _).mpr ⟨_, hplace, ?_, .unread rfl⟩⟩
  rintro ⟨e, hread, hkind⟩
  cases hread
  cases hkind

end Settings

end RemoteInput
