import Mathlib
import RemoteInput.Proofs.Precedence

/-!
# Which files hold settings

What a value has to be is said for each setting by itself (`SettingName.Admits`), and so is
the setting that it makes (`SettingName.Means`).  A document whose sections are tables holds
settings exactly when each of its values for a setting is admitted, and then each setting is
what its value means, or its default (`read_accepts`).

What a document has for a setting is told by membership (`Entries.Has`), so neither the order
of the entries nor any other entry plays a part.  That accepted values are the meaning of the
settings comes from `Schema.readDocument_tells`.  That a document of admitted values is
accepted is a second walk through it, in which no setter fails (`exists_readDocument`).
-/

namespace RemoteInput

/-- Whether a value is a table. -/
def Toml.IsTable (v : Toml) : Prop := ∃ origin entries, v = .table origin entries

/-- Whether a document has a value for a setting: its section is a table with the key of the setting
in it. -/
def Toml.Entries.Has (document : Toml.Entries) (name : SettingName) (v : Toml) : Prop :=
  ∃ origin entries, (name.sectionName, .table origin entries) ∈ document ∧ (name.key, v) ∈ entries

/-- Whether the sections of a document are tables, as far as they are there, and its backend is no
table. -/
structure Toml.Entries.Plain (document : Toml.Entries) : Prop where
  host : ∀ v, ("host", v) ∈ document → v.IsTable
  network : ∀ v, ("network", v) ∈ document → v.IsTable
  backend : ∀ v, document.Has .backend v → ¬ v.IsTable

namespace SettingName

/-- Whether a value can be that of a setting. -/
def Admits : SettingName → Toml → Prop
  | logLevel, v | bindAddress, v => ∃ text, v = .string text
  | backend, v => ∃ text ∈ ["auto", "log", "macos"], v = .string text
  | port, v => ∃ n : Int, 0 ≤ n ∧ n ≤ 65535 ∧ v = .integer n
  | maxLineBytes, v | readTimeoutSecs, v => ∃ n : Int, 0 ≤ n ∧ v = .integer n

/-- Whether a value stands for a setting: a text for itself or for the backend of this name, and an
integer for itself. -/
def Means : (name : SettingName) → Toml → name.type → Prop
  | logLevel, v, text | bindAddress, v, text => v = .string text
  | backend, v, kind => v = .string kind.name
  | port, v, n => v = .integer n.toNat
  | maxLineBytes, v, n | readTimeoutSecs, v, n => v = .integer n.toNat

/-! ## Values -/

theorem string_eq_ok {v : Toml} {text : String} :
    Schema.string v = .ok text ↔ v = .string text := by
  cases v <;> simp [Schema.string]

theorem natural_eq_ok {bound : Nat} {shape : Shape} {v : Toml} {n : Nat} :
    Schema.natural bound shape v = .ok n ↔ v = .integer n ∧ n < bound := by
  cases v with
  | integer value =>
      rw [Schema.natural]
      split
      next h =>
        obtain ⟨hleast, hgreatest⟩ : 0 ≤ value ∧ value < bound := by simpa using h
        rw [Except.ok.injEq, Toml.integer.injEq]
        omega
      next h =>
        have hout : ¬ (0 ≤ value ∧ value < bound) := by simpa using h
        simp only [reduceCtorEq, Toml.integer.injEq, false_iff]
        omega
  | string | float | boolean | datetime | array | table | tables => simp [Schema.natural]

theorem ofName?_eq_some {text : String} {kind : BackendKind} :
    BackendKind.ofName? text = some kind ↔ text = kind.name := by
  constructor
  · intro h
    exact (beq_iff_eq.mp (List.find?_some h :)).symm
  · rintro rfl
    cases kind <;> decide

theorem backend_eq_ok {v : Toml} (hv : ¬ v.IsTable) {kind : BackendKind} :
    Schema.backend v = .ok kind ↔ v = .string kind.name := by
  cases v with
  | string text =>
      rw [Toml.string.injEq, ← ofName?_eq_some, Schema.backend, Schema.backendName]
      cases BackendKind.ofName? text <;> simp
  | table origin entries => exact absurd ⟨origin, entries, rfl⟩ hv
  | integer | float | boolean | datetime | array | tables => simp [Schema.backend]

theorem port_eq_ok {v : Toml} {a : UInt16} :
    port.read v = .ok a ↔ v = .integer a.toNat := by
  refine bind_eq_ok.trans ?_
  constructor
  · rintro ⟨n, hn, hport⟩
    obtain ⟨rfl, hlt⟩ := natural_eq_ok.mp hn
    rw [← Except.ok.inj hport, UInt16.toNat_ofNat_of_lt' hlt]
  · rintro rfl
    refine ⟨a.toNat, natural_eq_ok.mpr ⟨rfl, a.toNat_lt⟩, ?_⟩
    rw [UInt16.ofNat_toNat]
    rfl

theorem word_eq_ok {shape : Shape} {v : Toml} {a : UInt64} :
    (Schema.natural (2 ^ 64) shape v >>= fun n => .ok (UInt64.ofNat n)) = .ok a ↔
      v = .integer a.toNat := by
  refine bind_eq_ok.trans ?_
  constructor
  · rintro ⟨n, hn, hword⟩
    obtain ⟨rfl, hlt⟩ := natural_eq_ok.mp hn
    rw [← Except.ok.inj hword, UInt64.toNat_ofNat_of_lt' hlt]
  · rintro rfl
    refine ⟨a.toNat, natural_eq_ok.mpr ⟨rfl, a.toNat_lt⟩, ?_⟩
    rw [UInt64.ofNat_toNat]

variable {name : SettingName} {v : Toml}

/-- Reading a value gives the setting that the value means. -/
theorem read_eq_ok (htable : name = backend → ¬ v.IsTable) {a : name.type} :
    name.read v = .ok a ↔ name.Means v a := by
  cases name with
  | logLevel | bindAddress => exact string_eq_ok
  | backend => exact backend_eq_ok (htable rfl)
  | port => exact port_eq_ok
  | maxLineBytes | readTimeoutSecs => exact word_eq_ok

/-- An integer of a document is that of a word if it is not negative. -/
theorem exists_word (hv : v.WellFormed) :
    (∃ a : UInt64, v = .integer a.toNat) ↔ ∃ n : Int, 0 ≤ n ∧ v = .integer n := by
  constructor
  · rintro ⟨a, rfl⟩
    exact ⟨a.toNat, Int.natCast_nonneg _, rfl⟩
  · rintro ⟨n, hn, rfl⟩
    cases hv with
    | integer _ hgreatest =>
        obtain ⟨n, rfl⟩ := Int.eq_ofNat_of_zero_le hn
        have hlt : n < 2 ^ 64 := by omega
        exact ⟨UInt64.ofNat n, by rw [UInt64.toNat_ofNat_of_lt' hlt]⟩

/-- A value means a setting if it is admitted. -/
theorem exists_means (hv : v.WellFormed) : (∃ a, name.Means v a) ↔ name.Admits v := by
  cases name with
  | logLevel | bindAddress => exact Iff.rfl
  | backend =>
      constructor
      · rintro ⟨kind, rfl⟩
        exact ⟨kind.name, by cases kind <;> decide, rfl⟩
      · rintro ⟨text, hmem, rfl⟩
        simp only [List.mem_cons, List.not_mem_nil, or_false] at hmem
        obtain rfl | rfl | rfl := hmem
        · exact ⟨BackendKind.auto, rfl⟩
        · exact ⟨BackendKind.log, rfl⟩
        · exact ⟨BackendKind.macos, rfl⟩
  | port =>
      constructor
      · rintro ⟨a, rfl⟩
        have hlt := UInt16.toNat_lt a
        exact ⟨a.toNat, Int.natCast_nonneg _, by omega, rfl⟩
      · rintro ⟨n, hleast, hgreatest, rfl⟩
        obtain ⟨n, rfl⟩ := Int.eq_ofNat_of_zero_le hleast
        have hlt : n < 2 ^ 16 := by omega
        exact ⟨UInt16.ofNat n, by rw [Means, UInt16.toNat_ofNat_of_lt' hlt]⟩
  | maxLineBytes | readTimeoutSecs => exact exists_word hv

end SettingName

/-! ## Documents of admitted values -/

namespace Schema

variable {s : Settings} {title : String} {sec : Section}

/-- The entries of a section are read if each value of a setting is. -/
theorem exists_readEntries (hsec : section? title = some sec) {entries : Toml.Entries}
    (hvalues : ∀ name : SettingName, name.sectionName = title → ∀ v,
      (name.key, v) ∈ entries → ∃ a, name.read v = .ok a) :
    ∃ s', readEntries sec s entries = .ok s' := by
  induction entries generalizing s with
  | nil => exact ⟨s, rfl⟩
  | cons entry entries ih =>
      obtain ⟨key, v⟩ := entry
      have hrest := fun name htitle v hv => hvalues name htitle v (List.mem_cons_of_mem _ hv)
      rw [readEntries]
      split
      next => exact ih hrest
      next set hset =>
        obtain ⟨name, htitle, rfl, heq⟩ := setter_eq hsec (mem_of_lookup hset)
        obtain ⟨a, ha⟩ := hvalues name htitle v (List.mem_cons_self ..)
        obtain ⟨s', hs'⟩ := ih (s := SettingName.put s name a) hrest
        exact ⟨s', bind_eq_ok.mpr ⟨_, map_eq_ok.mpr ⟨a, ha, rfl⟩ |> (heq s v).trans, hs'⟩⟩

/-- A document is read if its sections are tables and each value of a setting is read. -/
theorem exists_readDocument {document : Toml.Entries}
    (hsections : ∀ title v, (title, v) ∈ document → title = "host" ∨ title = "network" →
      v.IsTable)
    (hvalues : ∀ (name : SettingName) v, document.Has name v → ∃ a, name.read v = .ok a) :
    ∃ s', readDocument s document = .ok s' := by
  induction document generalizing s with
  | nil => exact ⟨s, rfl⟩
  | cons entry document ih =>
      obtain ⟨title, v⟩ := entry
      have hrest : ∀ s, ∃ s', readDocument s document = .ok s' := fun s => ih
        (fun title v hv => hsections title v (List.mem_cons_of_mem _ hv))
        (fun name v ⟨origin, entries, hmem, hv⟩ =>
          hvalues name v ⟨origin, entries, List.mem_cons_of_mem _ hmem, hv⟩)
      rw [readDocument]
      split
      next => exact hrest s
      next sec hsec =>
        have htitle : title = "host" ∨ title = "network" :=
          (section?_eq_some hsec).imp And.left And.left
        obtain ⟨origin, entries, rfl⟩ := hsections title v (List.mem_cons_self ..) htitle
        obtain ⟨next, hnext⟩ := exists_readEntries (s := s) hsec fun name hname v hv =>
          hvalues name v ⟨origin, entries, hname ▸ List.mem_cons_self .., hv⟩
        obtain ⟨s', hs'⟩ := hrest next
        exact ⟨s', bind_eq_ok.mpr ⟨next, hnext, hs'⟩⟩

end Schema

/-! ## Acceptance -/

section Documents

variable {document : Toml.Entries} {name : SettingName} {v : Toml} {s : Settings}

/-- The sections of a plain document are tables. -/
theorem Toml.Entries.Plain.sections (h : document.Plain) {title : String}
    (hmem : (title, v) ∈ document) (htitle : title = "host" ∨ title = "network") : v.IsTable := by
  obtain rfl | rfl := htitle
  · exact h.host v hmem
  · exact h.network v hmem

/-- In a plain document the value of a setting is read as what it means. -/
theorem Toml.Entries.Plain.read_eq_ok (h : document.Plain) (hv : document.Has name v)
    {a : name.type} : name.read v = .ok a ↔ name.Means v a := by
  refine SettingName.read_eq_ok ?_
  rintro rfl
  exact h.backend v hv

/-- In a plain document what it has for a setting is what is looked up. -/
theorem Toml.Entries.Plain.has_iff (h : document.Plain) (hdocument : document.WellFormed) :
    document.Has name v ↔ name.value? document = some v := by
  rw [SettingName.value?, Option.bind_eq_some_iff]
  constructor
  · rintro ⟨origin, entries, hmem, hv⟩
    have hentries := wellFormed_table.mp (hdocument.values _ hmem)
    exact ⟨_, (lookup_eq_some_iff hdocument.names).mpr hmem,
      (lookup_eq_some_iff hentries.names).mpr hv⟩
  · rintro ⟨sec, hsec, hv⟩
    have hmem := mem_of_lookup hsec
    obtain ⟨origin, entries, rfl⟩ := h.sections hmem (by cases name <;> decide)
    exact ⟨origin, entries, hmem, mem_of_lookup hv⟩

theorem Toml.Entries.WellFormed.exists_means (hdocument : document.WellFormed)
    (hv : document.Has name v) : (∃ a, name.Means v a) ↔ name.Admits v := by
  obtain ⟨origin, entries, hmem, hentry⟩ := hv
  have hentries := wellFormed_table.mp (hdocument.values _ hmem)
  exact SettingName.exists_means (hentries.values _ hentry)

namespace Settings

/-- The settings that a plain document holds are what its values mean. -/
theorem means_of_ofDocument (hdocument : document.WellFormed) (hplain : document.Plain)
    (hs : ofDocument document = .ok s) (hv : document.Has name v) : name.Means v (name.get s) := by
  have htells := Schema.readDocument_tells hdocument hs name
  rw [(hplain.has_iff hdocument).mp hv] at htells
  cases htells with
  | value hread => exact (hplain.read_eq_ok hv).mp hread

/-- A setting that a plain document has no value for has its default. -/
theorem default_of_ofDocument (hdocument : document.WellFormed) (hplain : document.Plain)
    (hs : ofDocument document = .ok s) (hnone : ∀ v, ¬ document.Has name v) :
    name.get s = name.default := by
  have hvalue : name.value? document = none :=
    Option.eq_none_iff_forall_ne_some.mpr fun v hv => hnone v ((hplain.has_iff hdocument).mpr hv)
  have htells := Schema.readDocument_tells hdocument hs name
  rw [hvalue] at htells
  cases htells with
  | nothing hsame => rw [hsame, name.get_default]

/-- A plain document holds settings if its values for them are admitted, and only then. -/
theorem exists_ofDocument_iff (hdocument : document.WellFormed) (hplain : document.Plain) :
    (∃ s, ofDocument document = .ok s) ↔
      ∀ (name : SettingName) v, document.Has name v → name.Admits v := by
  constructor
  · rintro ⟨s, hs⟩ name v hv
    exact (hdocument.exists_means hv).mp ⟨_, means_of_ofDocument hdocument hplain hs hv⟩
  · intro hall
    refine Schema.exists_readDocument (fun title v => hplain.sections) fun name v hv => ?_
    obtain ⟨a, ha⟩ := (hdocument.exists_means hv).mpr (hall name v hv)
    exact ⟨a, (hplain.read_eq_ok hv).mpr ha⟩

/-- A file with a plain document holds settings exactly when each value in it for a setting is
admitted.  Then each setting is what its value means, or its default if there is no value, whatever
else is in the document and in which order. -/
theorem read_accepts (fs : FileSystem) {path : String} {text : List Char} {document : Toml.Entries}
    (hread : fs.read path = .ok (Utf8.encode text)) (hparse : Toml.parse? text = some document)
    (hplain : document.Plain) :
    ((∃ s, Settings.read fs path = .ok s) ↔
      ∀ (name : SettingName) v, document.Has name v → name.Admits v) ∧
    ∀ s, Settings.read fs path = .ok s → ∀ name : SettingName,
      (∀ v, document.Has name v → name.Means v (name.get s)) ∧
      ((∀ v, ¬ document.Has name v) → name.get s = name.default) := by
  have hdocument := Toml.parse?_wellFormed hparse
  have hsettings : ∀ s, Settings.read fs path = .ok s ↔ ofDocument document = .ok s := by
    intro s
    simp [read_eq_ok, FileSystem.readText_eq_ok.mpr hread, ofText_eq_ok, hparse]
  simp only [hsettings]
  exact ⟨exists_ofDocument_iff hdocument hplain, fun s hs name =>
    ⟨fun _ => means_of_ofDocument hdocument hplain hs, default_of_ofDocument hdocument hplain hs⟩⟩

/-- A text with other keys than those of settings, and the network first. -/
def scatteredText : String :=
  "[network]\nspeed = true\nport = 0\nread_timeout_secs = 0x1E\n[host]\nlocal.log_level = 3\n" ++
    "backend = \"log\"\n"

/-- What it is read as. -/
def scatteredDocument : Toml.Entries :=
  [ ("network", .table .header
      [("speed", .boolean true), ("port", .integer 0), ("read_timeout_secs", .integer 30)]),
    ("host", .table .header
      [("local", .table .dotted [("log_level", .integer 3)]), ("backend", .string "log")]) ]

/-- A machine on which every file has that text. -/
def scatteredFiles : FileSystem := ⟨fun _ => .ok (Utf8.encode scatteredText.toList)⟩

/-- Sections and keys in another order than that of declaration, a key of the right name in a wrong
place, and three settings without a value. -/
theorem read_accepts_scattered :
    Toml.parse? scatteredText.toList = some scatteredDocument ∧ scatteredDocument.Plain ∧
      ∃ s, Settings.read scatteredFiles "host.toml" = .ok s ∧ s.logLevel = "info" ∧
        SettingName.backend.Means (.string "log") s.backend ∧ s.bindAddress = "0.0.0.0" ∧
        SettingName.port.Means (.integer 0) s.port ∧ s.maxLineBytes = 65536 ∧
        SettingName.readTimeoutSecs.Means (.integer 30) s.readTimeoutSecs := by
  have hparse : Toml.parse? scatteredText.toList = some scatteredDocument := by cbv
  have hhas : ∀ (name : SettingName) v, scatteredDocument.Has name v ↔
      (name = .port ∧ v = .integer 0) ∨ (name = .readTimeoutSecs ∧ v = .integer 30) ∨
        (name = .backend ∧ v = .string "log") := by
    intro name v
    cases name <;> simp [Toml.Entries.Has, scatteredDocument, SettingName.sectionName,
      SettingName.key, and_assoc]
  have hplain : scatteredDocument.Plain := by
    refine ⟨fun v hv => ?_, fun v hv => ?_, fun v hv => ?_⟩
    · simp [scatteredDocument] at hv
      exact ⟨_, _, hv⟩
    · simp [scatteredDocument] at hv
      exact ⟨_, _, hv⟩
    · obtain rfl : v = .string "log" := by simpa using (hhas .backend v).mp hv
      rintro ⟨origin, entries, htable⟩
      cases htable
  have hread : scatteredFiles.read "host.toml" = .ok (Utf8.encode scatteredText.toList) := rfl
  obtain ⟨hiff, hsettings⟩ := read_accepts scatteredFiles hread hparse hplain
  obtain ⟨s, hs⟩ := hiff.mpr fun name v hv => by
    obtain ⟨rfl, rfl⟩ | ⟨rfl, rfl⟩ | ⟨rfl, rfl⟩ := (hhas name v).mp hv
    · exact ⟨0, by decide, by decide, rfl⟩
    · exact ⟨30, by decide, rfl⟩
    · exact ⟨"log", by decide, rfl⟩
  have hvalue : ∀ {name : SettingName} {v : Toml}, scatteredDocument.Has name v →
      name.Means v (name.get s) := fun hv => (hsettings s hs _).1 _ hv
  have hdefault : ∀ name : SettingName, name = .logLevel ∨ name = .bindAddress ∨
      name = .maxLineBytes → name.get s = name.default := by
    intro name hname
    refine (hsettings s hs name).2 fun v hv => ?_
    have hother := (hhas name v).mp hv
    obtain rfl | rfl | rfl := hname <;> simp at hother
  exact ⟨hparse, hplain, s, hs, hdefault .logLevel (.inl rfl),
    hvalue ((hhas _ _).mpr (.inr (.inr ⟨rfl, rfl⟩))), hdefault .bindAddress (.inr (.inl rfl)),
    hvalue ((hhas _ _).mpr (.inl ⟨rfl, rfl⟩)), hdefault .maxLineBytes (.inr (.inr rfl)),
    hvalue ((hhas _ _).mpr (.inr (.inl ⟨rfl, rfl⟩)))⟩

end Settings

end Documents

end RemoteInput
