import RemoteInput.Proofs.Defects

/-!
# What a check reads and what its error names

Every check of the decoder looks at one member, and its error names that member
(`Requirement.Fails.field?_eq`).  So an error tells which check it comes from, and
a check has the same outcome on two objects that agree in its member
(`input_congr`).  The members of other kinds of messages are never looked at
(`decode_ownMembers`).  A text that a word is refused for is the one that stands
there, and no word (`word_eq_unknownMember`, `modifiers_eq_unknownMember`).
-/

namespace RemoteInput

/-! ## What an error names -/

/-- The member whose check an error comes from. -/
def DecodeError.field? : DecodeError → Option String
  | .notAnObject => none
  | .missingField field | .unknownMember field _ | .notNumeric field | .wrongType field _ =>
    some field
  | .unknownEventType _ => some "event_type"

/-- The members that are looked at for the input of a message of a kind. -/
def EventKind.fields : EventKind → List String
  | .keyboard => ["key", "action", "modifiers"]
  | .trackpad => ["action", "dx", "dy"]
  | .system => ["command"]

namespace Schema

variable {ms : Json.Members} {e : DecodeError}

/-- The member that a requirement is about. -/
def Requirement.field : Requirement → String
  | .string field | .oneOf field _ | .optionalNumber field | .optionalArrayOf field _ => field

theorem NoString.field?_eq {field : String} (h : NoString ms field e) : e.field? = some field := by
  cases h <;> rfl

theorem Requirement.Fails.field?_eq {r : Requirement} (h : r.Fails ms e) :
    e.field? = some r.field := by
  cases h with
  | string h => exact h.field?_eq
  | oneOf h => exact h.field?_eq
  | unknown => rfl
  | notNumber => rfl
  | notArray => rfl
  | item hget hitem =>
      obtain ⟨before, item, after, -, -, hbad⟩ := hitem
      cases hbad <;> rfl

end Schema

theorem asked_fields {kind : EventKind} {asked : List Schema.Requirement}
    (h : (wireName kind, .optionalNumber "timestamp" :: asked) ∈ Schema.requirements) :
    asked.map Schema.Requirement.field = kind.fields := by
  cases kind <;>
    · obtain rfl : asked = _ := by simpa [Schema.requirements, wireName] using h
      rfl

namespace Decode

variable {ms : Json.Members} {field : String} {e : DecodeError}

/-- The error of an input names one of the members of its kind. -/
theorem field?_input {kind : EventKind} (h : input ms kind = .error e) :
    ∃ name ∈ kind.fields, e.field? = some name := by
  obtain ⟨asked, hasked⟩ := exists_asked kind
  obtain ⟨before, r, after, rfl, -, hfails⟩ := (input_eq_error hasked).mp h
  refine ⟨r.field, ?_, hfails.field?_eq⟩
  rw [← asked_fields hasked, List.map_append, List.map_cons]
  exact List.mem_append_right _ List.mem_cons_self

/-! ## What a check reads -/

variable {ms' : Json.Members}

theorem string_congr (h : ms'.get? field = ms.get? field) : string ms' field = string ms field := by
  rw [string, string, h]

theorem word_congr {α : Type} [Vocabulary α] (h : ms'.get? field = ms.get? field) :
    word α ms' field = word α ms field := by
  rw [word, word, string_congr h]

theorem distance_congr (h : ms'.get? field = ms.get? field) :
    distance ms' field = distance ms field := by
  rw [distance, distance, h]

theorem modifiers_congr (h : ms'.get? "modifiers" = ms.get? "modifiers") :
    modifiers ms' = modifiers ms := by
  rw [modifiers, modifiers, h]

theorem kind_congr (h : ms'.get? "event_type" = ms.get? "event_type") : kind ms' = kind ms := by
  rw [kind, kind, string_congr h]

/-- Only the members of its kind are looked at for an input. -/
theorem input_congr {kind : EventKind} (h : ∀ name ∈ kind.fields, ms'.get? name = ms.get? name) :
    input ms' kind = input ms kind := by
  cases kind with
  | keyboard =>
      simp only [EventKind.fields, List.mem_cons, List.not_mem_nil, or_false, forall_eq_or_imp,
        forall_eq] at h
      simp only [input, string_congr h.1, word_congr h.2.1, modifiers_congr h.2.2]
  | trackpad =>
      simp only [EventKind.fields, List.mem_cons, List.not_mem_nil, or_false, forall_eq_or_imp,
        forall_eq] at h
      simp only [input, word_congr h.1, distance_congr h.2.1, distance_congr h.2.2]
  | system =>
      simp only [EventKind.fields, List.mem_cons, List.not_mem_nil, or_false, forall_eq] at h
      simp only [input, word_congr h]

/-! ## Texts that are refused -/

theorem string_ne_unknownMember {name text : String} :
    string ms field ≠ .error (.unknownMember name text) := by
  rw [Ne, string_eq_error]
  rintro ⟨⟩

theorem distance_ne_unknownMember {name text : String} :
    distance ms field ≠ .error (.unknownMember name text) := by
  rw [Ne, distance_eq_error]
  rintro ⟨⟩

/-- A word is refused for the text of its member. -/
theorem word_eq_unknownMember {α : Type} [Vocabulary α] {name text : String}
    (h : word α ms field = .error (.unknownMember name text)) :
    name = field ∧ ms.get? field = some (.string text) ∧
      Vocabulary.ofWireName? α text = none := by
  cases (word_eq_error rfl).mp h with
  | oneOf hstring => cases hstring
  | unknown hget hunknown => exact ⟨rfl, hget, ofWireName?_eq_none.mpr hunknown⟩

/-- A set of modifiers is refused for the text of an item. -/
theorem modifiers_eq_unknownMember {name text : String}
    (h : modifiers ms = .error (.unknownMember name text)) :
    name = "modifiers" ∧ Vocabulary.ofWireName? Modifier text = none ∧
      ∃ before after, ms.get? "modifiers" = some (.array (before ++ .string text :: after)) := by
  cases (modifiers_eq_error rfl).mp h with
  | item hget hitem =>
      obtain ⟨before, item, after, rfl, -, hbad⟩ := hitem
      cases hbad with
      | unknown hunknown => exact ⟨rfl, ofWireName?_eq_none.mpr hunknown, before, after, hget⟩

theorem insertModifiers_append (before items : List Json) (set : Modifiers) :
    insertModifiers set (before ++ items) =
      insertModifiers set before >>= fun set => insertModifiers set items := by
  fun_induction insertModifiers set before with
  | case1 => rfl
  | case2 set name before m hfound ih =>
      rw [List.cons_append, insertModifiers, hfound]
      exact ih
  | case3 set name before hnone =>
      rw [List.cons_append, insertModifiers, hnone]
      rfl
  | case4 set item before hother =>
      rw [List.cons_append, insertModifiers]
      · rfl
      · exact hother

end Decode

/-! ## Objects -/

/-- Where the error of an object comes from. -/
theorem decode_object_error {ms : Json.Members} {time : Float} {e : DecodeError}
    (h : (Event.decode (.object ms) time).result = .error e) :
    Decode.kind ms = .error e ∨ e = .notNumeric "timestamp" ∨
      ∃ kind, Decode.kind ms = .ok kind ∧ Decode.input ms kind = .error e := by
  obtain hkind | ⟨kind, hkind, htime | ⟨-, hinput⟩⟩ := decode_object_eq_error.mp h
  · exact .inl hkind
  · cases htime
    exact .inr (.inl rfl)
  · exact .inr (.inr ⟨kind, hkind, hinput⟩)

/-- Objects that agree in their kinds, their times and the members of their kind are the same to the
decoder. -/
theorem decode_object_congr {ms ms' : Json.Members} {kind : EventKind}
    (hkind : ms.get? "event_type" = some (.string (wireName kind)))
    (h : ∀ name ∈ "event_type" :: "timestamp" :: kind.fields, ms'.get? name = ms.get? name)
    (receivedAt : Float) :
    Event.decode (.object ms') receivedAt = Event.decode (.object ms) receivedAt := by
  obtain ⟨hevent, htime, hfields⟩ : ms'.get? "event_type" = ms.get? "event_type" ∧
      ms'.get? "timestamp" = ms.get? "timestamp" ∧
        ∀ name ∈ kind.fields, ms'.get? name = ms.get? name := by
    simpa only [List.forall_mem_cons] using h
  have hms : Decode.kind ms = .ok kind := Decode.kind_eq_ok.mpr hkind
  simp only [Event.decode, Decode.kind_congr hevent, hms, htime, Decode.input_congr hfields]

theorem Json.Members.get?_filter (ms : Json.Members) {keep : String → Bool} {name : String}
    (h : keep name = true) : get? (ms.filter fun m => keep m.1) name = ms.get? name := by
  have hstep : ∀ (found : Option Json) (m : String × Json),
      (if keep m.1 = true then (if m.1 = name then some m.2 else found) else found) =
        if m.1 = name then some m.2 else found := by
    intro found m
    by_cases hname : m.1 = name
    · simp [hname, h]
    · simp [hname]
  simp only [get?, List.foldl_filter, hstep]

/-- Only the kind, the time and the members of its kind count in a message.  Two objects that agree
in them are read alike, accepted or refused, and any other members may be left out. -/
theorem decode_ownMembers {ms : Json.Members} {kind : EventKind}
    (hkind : ms.get? "event_type" = some (.string (wireName kind))) (receivedAt : Float) :
    (∀ ms' : Json.Members, ms'.get? "event_type" = ms.get? "event_type" →
        ms'.get? "timestamp" = ms.get? "timestamp" →
        (∀ name ∈ kind.fields, ms'.get? name = ms.get? name) →
        Event.decode (.object ms') receivedAt = Event.decode (.object ms) receivedAt) ∧
      ∀ keep : String → Bool,
        (∀ name ∈ "event_type" :: "timestamp" :: kind.fields, keep name = true) →
        Event.decode (.object (ms.filter fun m => keep m.1)) receivedAt =
          Event.decode (.object ms) receivedAt := by
  constructor
  · intro ms' hevent htime hfields
    refine decode_object_congr hkind ?_ receivedAt
    exact List.forall_mem_cons.mpr ⟨hevent, List.forall_mem_cons.mpr ⟨htime, hfields⟩⟩
  · intro keep hkeep
    exact decode_object_congr hkind (fun name hname => ms.get?_filter (hkeep name hname)) receivedAt

/-- A key event with members that only other kinds have, none of which is what it has to be
there. -/
def crowdedMembers : Json.Members :=
  [ ("dx", .string "far"), ("event_type", .string "KEYBOARD"), ("command", .number 7),
    ("key", .string "A"), ("dy", .null), ("action", .string "UP"), ("note", .array [.null]) ]

theorem decode_ownMembers_crowded :
    let plain : Json.Members :=
      [("action", .string "UP"), ("key", .string "A"), ("event_type", .string "KEYBOARD")]
    plain.get? "event_type" = some (.string (wireName EventKind.keyboard)) ∧
      Event.decode (.object crowdedMembers) 5 = Event.decode (.object plain) 5 ∧
      (Event.decode (.object crowdedMembers) 5).result = .ok ⟨5, .keyboard "A" .up ∅⟩ := by
  intro plain
  have hkind : plain.get? "event_type" = some (.string (wireName EventKind.keyboard)) := rfl
  have hsame := (decode_ownMembers hkind 5).1 crowdedMembers rfl rfl (by
    simp only [EventKind.fields, List.forall_mem_cons]
    exact ⟨rfl, rfl, rfl, nofun⟩)
  exact ⟨hkind, hsame, hsame ▸ rfl⟩

end RemoteInput
