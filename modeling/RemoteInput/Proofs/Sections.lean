import RemoteInput.Proofs.Documents
import RemoteInput.Proofs.Basics
import RemoteInput.Settings.Load

/-!
# What a document says of a setting

A setting has a section and a key.  `SettingName.value?` looks up the value that
a document has for it, and knows nothing of the other settings.  The reader of
documents goes through all entries in order and sets what it comes across.  Since
names are distinct, it sets each setting at most once, and to that value
(`readDocument_tells`).

What one setter does is said once for all settings (`Schema.setter_tells`): it sets
the setting of its key and leaves the others alone.  Parts that are read one after
the other say of a setting what one of them says (`Tells.trans`).
-/

namespace RemoteInput

/-! ## Settings one by one -/

/-- The settings. -/
inductive SettingName where
  | logLevel
  | backend
  | bindAddress
  | port
  | maxLineBytes
  | readTimeoutSecs
  deriving DecidableEq

namespace SettingName

/-- The type of the values of a setting. -/
abbrev type : SettingName → Type
  | logLevel | bindAddress => String
  | backend => BackendKind
  | port => UInt16
  | maxLineBytes | readTimeoutSecs => UInt64

/-- The value of a setting. -/
def get (s : Settings) : (name : SettingName) → name.type
  | logLevel => s.logLevel
  | backend => s.backend
  | bindAddress => s.bindAddress
  | port => s.port
  | maxLineBytes => s.maxLineBytes
  | readTimeoutSecs => s.readTimeoutSecs

/-- Gives a setting a value. -/
def put (s : Settings) : (name : SettingName) → name.type → Settings
  | logLevel, a => { s with logLevel := a }
  | backend, a => { s with backend := a }
  | bindAddress, a => { s with bindAddress := a }
  | port, a => { s with port := a }
  | maxLineBytes, a => { s with maxLineBytes := a }
  | readTimeoutSecs, a => { s with readTimeoutSecs := a }

@[simp] theorem get_put_self (s : Settings) (name : SettingName) (a : name.type) :
    name.get (put s name a) = a := by
  cases name <;> rfl

theorem get_put_other {name other : SettingName} (h : other ≠ name) (s : Settings)
    (a : name.type) : other.get (put s name a) = other.get s := by
  revert h
  cases name <;> cases other <;> simp [get, put]

/-- The key of a setting in its section. -/
def key : SettingName → String
  | logLevel => "log_level"
  | backend => "backend"
  | bindAddress => "bind_address"
  | port => "port"
  | maxLineBytes => "max_line_bytes"
  | readTimeoutSecs => "read_timeout_secs"

theorem key_injective : Function.Injective key := by
  intro name other h
  revert h
  cases name <;> cases other <;> simp [key]

/-- The name of the section of a setting. -/
def sectionName : SettingName → String
  | logLevel | backend => "host"
  | bindAddress | port | maxLineBytes | readTimeoutSecs => "network"

/-- The section of a setting. -/
def sec : SettingName → Schema.Section
  | logLevel | backend => Schema.hostSection
  | bindAddress | port | maxLineBytes | readTimeoutSecs => Schema.networkSection

theorem section?_sectionName (name : SettingName) :
    Schema.section? name.sectionName = some name.sec := by
  cases name <;> rfl

/-- Reads the value of a setting. -/
def read : (name : SettingName) → Toml → Except SchemaError name.type
  | logLevel => Schema.string
  | backend => Schema.backend
  | bindAddress => Schema.string
  | port => fun v => return UInt16.ofNat (← Schema.natural (2 ^ 16) .port v)
  | maxLineBytes => fun v => return UInt64.ofNat (← Schema.natural (2 ^ 64) .size v)
  | readTimeoutSecs => fun v => return UInt64.ofNat (← Schema.natural (2 ^ 64) .seconds v)

end SettingName

/-- The value that a section has for a key: that of the entry of this name in a table, and that in
the place of the key in an array. -/
def Schema.Section.value? (sec : Section) (key : String) : Toml → Option Toml
  | .table _ entries => Toml.Entries.get? entries key
  | .array items => ((sec.keys.map Prod.fst).zip items).lookup key
  | .tables elements =>
    ((sec.keys.map Prod.fst).zip (elements.reverse.map (Toml.table .header))).lookup key
  | _ => none

/-- The value that a document has for a setting. -/
def SettingName.value? (name : SettingName) (document : Toml.Entries) : Option Toml :=
  (document.get? name.sectionName).bind (name.sec.value? name.key)

/-! ## What is said of a setting -/

/-- What comes of a setting in a part of a document, given the value that it has there. -/
inductive Tells (name : SettingName) (s s' : Settings) : Option Toml → Prop where
  | nothing (h : name.get s' = name.get s) : Tells name s s' none
  | value {v : Toml} (h : name.read v = .ok (name.get s')) : Tells name s s' (some v)

variable {name : SettingName} {s s' s'' : Settings}

theorem Tells.refl (name : SettingName) (s : Settings) : Tells name s s none := .nothing rfl

/-- Two parts say of a setting what one of them says. -/
theorem Tells.trans {first second : Option Toml} (h : Tells name s s' first)
    (h' : Tells name s' s'' second) (hone : ∀ v ∈ first, second = none) :
    Tells name s s'' (first.or second) := by
  cases h with
  | nothing hsame =>
      cases h' with
      | nothing hsame' => exact .nothing (hsame'.trans hsame)
      | value hread => exact .value hread
  | value hread =>
      cases h' with
      | nothing hsame' => exact .value (hsame' ▸ hread)
      | value => cases hone _ rfl

namespace Schema

/-- There are two sections. -/
theorem section?_eq_some {title : String} {sec : Section} (h : section? title = some sec) :
    (title = "host" ∧ sec = hostSection) ∨ (title = "network" ∧ sec = networkSection) := by
  unfold section? at h
  split at h
  · exact .inl ⟨rfl, (Option.some.inj h).symm⟩
  · exact .inr ⟨rfl, (Option.some.inj h).symm⟩
  · cases h

/-- A setter of a section reads the value of the setting of its key and gives it to the setting. -/
theorem setter_eq {title key : String} {sec : Section} (hsec : section? title = some sec)
    {set : Setter} (hmem : (key, set) ∈ sec.keys) :
    ∃ name : SettingName, name.sectionName = title ∧ name.key = key ∧
      ∀ s v, set s v = (name.read v).map (SettingName.put s name) := by
  obtain ⟨rfl, rfl⟩ | ⟨rfl, rfl⟩ := section?_eq_some hsec
  · simp only [hostSection, List.mem_cons, Prod.mk.injEq, List.not_mem_nil, or_false] at hmem
    obtain ⟨rfl, rfl⟩ | ⟨rfl, rfl⟩ := hmem
    · exact ⟨.logLevel, rfl, rfl, fun _ _ => rfl⟩
    · exact ⟨.backend, rfl, rfl, fun _ _ => rfl⟩
  · simp only [networkSection, List.mem_cons, Prod.mk.injEq, List.not_mem_nil, or_false] at hmem
    obtain ⟨rfl, rfl⟩ | ⟨rfl, rfl⟩ | ⟨rfl, rfl⟩ | ⟨rfl, rfl⟩ := hmem
    · exact ⟨.bindAddress, rfl, rfl, fun _ _ => rfl⟩
    · exact ⟨.port, rfl, rfl, fun s v =>
        (map_bind_ok (natural (2 ^ 16) .port v) UInt16.ofNat (SettingName.put s .port)).symm⟩
    · exact ⟨.maxLineBytes, rfl, rfl, fun s v =>
        (map_bind_ok (natural (2 ^ 64) .size v) UInt64.ofNat
          (SettingName.put s .maxLineBytes)).symm⟩
    · exact ⟨.readTimeoutSecs, rfl, rfl, fun s v =>
        (map_bind_ok (natural (2 ^ 64) .seconds v) UInt64.ofNat
          (SettingName.put s .readTimeoutSecs)).symm⟩

/-- A setter of a section sets the setting of its key to the value that it reads. -/
theorem setter_eq_ok {title key : String} {sec : Section} (hsec : section? title = some sec)
    {set : Setter} (hmem : (key, set) ∈ sec.keys) {v : Toml} (h : set s v = .ok s') :
    ∃ name : SettingName, name.sectionName = title ∧ name.key = key ∧
      ∃ a, name.read v = .ok a ∧ s' = SettingName.put s name a := by
  obtain ⟨name, htitle, hkey, heq⟩ := setter_eq hsec hmem
  obtain ⟨a, ha, hs⟩ := map_eq_ok.mp (heq s v ▸ h)
  exact ⟨name, htitle, hkey, a, ha, hs.symm⟩

variable {title : String} {sec : Section}

/-- A setter says of the setting of its key what it reads, and nothing of the others. -/
theorem setter_tells (hsec : section? title = some sec) {key : String} {set : Setter}
    (hmem : (key, set) ∈ sec.keys) {v : Toml} (h : set s v = .ok s') (name : SettingName) :
    Tells name s s' (if key = name.key then some v else none) := by
  obtain ⟨own, -, rfl, a, ha, rfl⟩ := setter_eq_ok hsec hmem h
  by_cases hname : own.key = name.key
  · obtain rfl := SettingName.key_injective hname
    rw [if_pos rfl]
    exact .value (by rw [SettingName.get_put_self, ha])
  · rw [if_neg hname]
    exact .nothing (SettingName.get_put_other (fun heq => hname (by rw [heq])) s a)

/-- The key of a setting is one of its section only. -/
theorem key_mem_iff (hsec : section? title = some sec) (name : SettingName) :
    name.key ∈ sec.keys.map Prod.fst ↔ name.sectionName = title := by
  obtain ⟨rfl, rfl⟩ | ⟨rfl, rfl⟩ := section?_eq_some hsec <;> cases name <;> decide

/-! ## Sections -/

/-- Reading an entry of a section says of a setting of the section what it has for its key. -/
theorem readEntry_tells (hsec : section? title = some sec) {key : String} {v : Toml}
    {entries : Toml.Entries} (h : readEntries sec s ((key, v) :: entries) = .ok s')
    (name : SettingName) :
    ∃ next, readEntries sec next entries = .ok s' ∧
      Tells name s next
        (if title = name.sectionName then (if key = name.key then some v else none) else none) := by
  unfold readEntries at h
  split at h
  next hunknown =>
    refine ⟨s, h, ?_⟩
    have hkey : title = name.sectionName → key ≠ name.key := by
      rintro htitle rfl
      exact lookup_eq_none.mp hunknown ((key_mem_iff hsec name).mpr htitle.symm)
    split
    next htitle =>
      rw [if_neg (hkey htitle)]
      exact .refl name s
    next => exact .refl name s
  next set hset =>
    obtain ⟨next, hnext, h⟩ := bind_eq_ok.mp h
    have hmem : (key, set) ∈ sec.keys := mem_of_lookup hset
    have htells := setter_tells hsec hmem hnext name
    refine ⟨next, h, ?_⟩
    split
    next => exact htells
    next htitle =>
      have hkey : key ≠ name.key := by
        rintro rfl
        exact htitle ((key_mem_iff hsec name).mp (List.mem_map_of_mem hmem)).symm
      rwa [if_neg hkey] at htells

/-- The entries of a section say of a setting of the section what the entry of its key says. -/
theorem readEntries_tells (hsec : section? title = some sec) {entries : Toml.Entries}
    (hnames : (entries.map Prod.fst).Nodup) (h : readEntries sec s entries = .ok s')
    (name : SettingName) :
    Tells name s s' (if title = name.sectionName then entries.get? name.key else none) := by
  induction entries generalizing s with
  | nil =>
      obtain rfl := Except.ok.inj h
      simpa [Toml.Entries.get?] using Tells.refl name s
  | cons entry entries ih =>
      obtain ⟨key, v⟩ := entry
      obtain ⟨hfresh, hnames⟩ := List.nodup_cons.mp hnames
      obtain ⟨next, hnext, hfirst⟩ := readEntry_tells hsec h name
      have hrest := ih hnames hnext
      split at hfirst
      next htitle =>
        rw [if_pos htitle] at hrest ⊢
        rw [Toml.Entries.get?, lookup_cons_or]
        refine hfirst.trans hrest fun v' hv' => ?_
        split at hv'
        next hkey => exact lookup_eq_none.mpr (hkey ▸ hfresh)
        next => cases hv'
      next htitle =>
        rw [if_neg htitle] at hrest ⊢
        exact hfirst.trans hrest fun _ _ => rfl

theorem lookup_zip_eq_none {keys : List String} {key : String} (h : key ∉ keys)
    (items : List Toml) : (keys.zip items).lookup key = none := by
  rw [lookup_eq_none]
  intro hzip
  obtain ⟨⟨other, item⟩, hpair, rfl⟩ := List.mem_map.mp hzip
  exact h (List.of_mem_zip hpair).1

/-- The items of a section say of a setting what the one in the place of its key says. -/
theorem readItems_tells (hsec : section? title = some sec) {keys : List (String × Setter)}
    (hkeys : ∀ k ∈ keys, k ∈ sec.keys) (hnames : (keys.map Prod.fst).Nodup) {items : List Toml}
    (h : readItems keys s items = .ok s') (name : SettingName) :
    Tells name s s' (((keys.map Prod.fst).zip items).lookup name.key) := by
  fun_induction readItems keys s items with
  | case1 key set keys s v items ih =>
      obtain ⟨next, hnext, h⟩ := bind_eq_ok.mp h
      obtain ⟨hmem, hkeys⟩ := List.forall_mem_cons.mp hkeys
      obtain ⟨hfresh, hnames⟩ := List.nodup_cons.mp hnames
      rw [List.map_cons, List.zip_cons_cons, lookup_cons_or]
      refine (setter_tells hsec hmem hnext name).trans (ih next hkeys hnames h) fun v' hv' => ?_
      split at hv'
      next hkey => exact lookup_zip_eq_none (hkey ▸ hfresh) items
      next => cases hv'
  | case2 keys s items hshort =>
      obtain rfl := Except.ok.inj h
      have hnothing : (keys.map Prod.fst).zip items = [] := by
        cases keys with
        | nil => rfl
        | cons k keys =>
            cases items with
            | nil => rfl
            | cons v items => exact (hshort k.1 k.2 keys v items rfl rfl).elim
      rw [hnothing]
      exact .refl name s

theorem names_nodup (hsec : section? title = some sec) : (sec.keys.map Prod.fst).Nodup := by
  obtain ⟨rfl, rfl⟩ | ⟨rfl, rfl⟩ := section?_eq_some hsec <;> decide

/-- A section that is an array says of a setting of the section what the item in the place of its
key says. -/
theorem readItems_own (hsec : section? title = some sec) {items : List Toml}
    (h : readItems sec.keys s items = .ok s') (name : SettingName) :
    Tells name s s' (if title = name.sectionName then
      ((sec.keys.map Prod.fst).zip items).lookup name.key else none) := by
  have htells := readItems_tells hsec (fun _ hk => hk) (names_nodup hsec) h name
  split
  next => exact htells
  next htitle =>
    have hkey : name.key ∉ sec.keys.map Prod.fst := fun hmem =>
      htitle ((key_mem_iff hsec name).mp hmem).symm
    rwa [lookup_zip_eq_none hkey] at htells

/-- A section says of a setting of the section what the value of its key says. -/
theorem readSection_tells (hsec : section? title = some sec) {v : Toml} (hv : v.WellFormed)
    (h : readSection sec s v = .ok s') (name : SettingName) :
    Tells name s s' (if title = name.sectionName then sec.value? name.key v else none) := by
  cases v with
  | table origin entries =>
      exact readEntries_tells hsec (Toml.wellFormed_table.mp hv).names h name
  | array items => exact readItems_own hsec h name
  | tables elements => exact readItems_own hsec h name
  | datetime =>
      obtain rfl := Except.ok.inj h
      simpa [Section.value?] using Tells.refl name s
  | string | integer | float | boolean => cases h

/-! ## Documents -/

/-- A document says of each setting what the value says that it has for it. -/
theorem readDocument_tells {document : Toml.Entries} (hwellFormed : document.WellFormed)
    (h : readDocument s document = .ok s') (name : SettingName) :
    Tells name s s' (name.value? document) := by
  induction document generalizing s with
  | nil =>
      obtain rfl := Except.ok.inj h
      exact .refl name s
  | cons entry document ih =>
      obtain ⟨title, v⟩ := entry
      obtain ⟨hfresh, hnames⟩ := List.nodup_cons.mp hwellFormed.names
      obtain ⟨hv, hvalues⟩ := List.forall_mem_cons.mp hwellFormed.values
      unfold readDocument at h
      split at h
      next hnone =>
        have htitle : title ≠ name.sectionName := by
          rintro rfl
          rw [name.section?_sectionName] at hnone
          cases hnone
        have hrest := ih ⟨hnames, hvalues⟩ h
        rwa [SettingName.value?, Toml.Entries.get?, lookup_cons_or, if_neg htitle, Option.none_or]
      next sec hsec =>
        obtain ⟨next, hnext, h⟩ := bind_eq_ok.mp h
        have hfirst := readSection_tells hsec hv hnext name
        have hrest := ih ⟨hnames, hvalues⟩ h
        rw [SettingName.value?, Toml.Entries.get?, lookup_cons_or]
        split at hfirst
        next htitle =>
          -- No later section has this name, so what this one says stands.
          have hlater : name.value? document = none := by
            rw [SettingName.value?, Toml.Entries.get?, lookup_eq_none.mpr (htitle ▸ hfresh),
              Option.bind_none]
          obtain rfl : name.sec = sec := by
            rw [htitle, name.section?_sectionName] at hsec
            exact Option.some.inj hsec
          rw [hlater] at hrest
          rw [if_pos htitle, Option.some_or, Option.bind_some]
          simpa using hfirst.trans hrest fun _ _ => rfl
        next htitle =>
          rw [if_neg htitle, Option.none_or]
          exact hfirst.trans hrest nofun

end Schema

end RemoteInput
