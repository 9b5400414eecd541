import RemoteInput.Proofs.Schema

/-!
# The first defect of a message

A message may be wrong in several ways at once, and it is refused for one of them.
Which one is said here without the decoder.  A message of a kind has a list of
requirements in a fixed order (`Schema.requirements`).  A requirement that is not
met fails with an error (`Schema.Requirement.Fails`), and the first one that is not
met has the say (`Schema.FirstDefect`).  The items of an array of modifiers are
looked at in the same way, so `FirstFails` is used for both.

Each check of the decoder fails exactly as the requirement that it is for
(`string_eq_error`, `word_eq_error`, `distance_eq_error`, `modifiers_eq_error`),
and a sequence of checks fails as a list of requirements does (`firstFails_cons`).
So the error of a message is that of its first defect
(`decode_reports_firstDefect`).
-/

namespace RemoteInput

/-! ## The first failure -/

section FirstFails

variable {α ε : Type} {Passes : α → Prop} {Fails : α → ε → Prop} {a : α} {as : List α} {e : ε}

/-- Whether something in a list fails with an error, and everything before it passes. -/
def FirstFails (Passes : α → Prop) (Fails : α → ε → Prop) (as : List α) (e : ε) : Prop :=
  ∃ before a after, as = before ++ a :: after ∧ (∀ b ∈ before, Passes b) ∧ Fails a e

@[simp] theorem firstFails_nil : ¬ FirstFails Passes Fails [] e := by
  rintro ⟨before, a, after, h, -⟩
  cases before <;> cases h

@[simp] theorem firstFails_cons :
    FirstFails Passes Fails (a :: as) e ↔ Fails a e ∨ Passes a ∧ FirstFails Passes Fails as e := by
  constructor
  · rintro ⟨before, b, after, h, hbefore, hfails⟩
    cases before with
    | nil =>
        cases h
        exact .inl hfails
    | cons c before =>
        cases h
        obtain ⟨hfirst, hbefore⟩ := List.forall_mem_cons.mp hbefore
        exact .inr ⟨hfirst, before, b, after, rfl, hbefore, hfails⟩
  · rintro (hfails | ⟨hfirst, before, b, after, rfl, hbefore, hfails⟩)
    · exact ⟨[], a, as, rfl, nofun, hfails⟩
    · exact ⟨a :: before, b, after, rfl, List.forall_mem_cons.mpr ⟨hfirst, hbefore⟩, hfails⟩

end FirstFails

/-! ## What is asked of a message -/

namespace Schema

/-- What is asked of a member. -/
inductive Requirement where
  /-- It is a string. -/
  | string (field : String)
  /-- It is one of some strings. -/
  | oneOf (field : String) (names : List String)
  /-- It is a number, if it is there. -/
  | optionalNumber (field : String)
  /-- It is an array of some strings, if it is there. -/
  | optionalArrayOf (field : String) (names : List String)

/-- Whether an object meets a requirement. -/
def Requirement.Met (ms : Json.Members) : Requirement → Prop
  | .string field => ∃ text, ms.get? field = some (.string text)
  | .oneOf field names => IsOneOf ms field names
  | .optionalNumber field => MayBeNumber ms field
  | .optionalArrayOf field names => MayBeArrayOf ms field names

/-- Why a member is no string. -/
inductive NoString (ms : Json.Members) (field : String) : DecodeError → Prop
  | absent (h : ms.get? field = none) : NoString ms field (.missingField field)
  | otherType {value : Json} (h : ms.get? field = some value)
      (hvalue : ∀ text, value ≠ .string text) : NoString ms field (.wrongType field .string)

/-- Whether an item of an array is one of some strings. -/
def GoodItem (names : List String) (item : Json) : Prop := ∃ name ∈ names, item = .string name

/-- Why it is not. -/
inductive BadItem (field : String) (names : List String) : Json → DecodeError → Prop
  | otherType {item : Json} (h : ∀ text, item ≠ .string text) :
      BadItem field names item (.wrongType field .strings)
  | unknown {text : String} (h : text ∉ names) :
      BadItem field names (.string text) (.unknownMember field text)

theorem goodItem_string {names : List String} {text : String} :
    GoodItem names (.string text) ↔ text ∈ names := by
  simp [GoodItem]

theorem badItem_string {field text : String} {names : List String} {e : DecodeError} :
    BadItem field names (.string text) e ↔ text ∉ names ∧ e = .unknownMember field text := by
  constructor
  · intro h
    cases h with
    | otherType hnot => exact absurd rfl (hnot text)
    | unknown hnot => exact ⟨hnot, rfl⟩
  · rintro ⟨hnot, rfl⟩
    exact .unknown hnot

theorem badItem_other {field : String} {names : List String} {item : Json} {e : DecodeError}
    (h : ∀ text, item ≠ .string text) :
    BadItem field names item e ↔ e = .wrongType field .strings := by
  constructor
  · intro hbad
    cases hbad with
    | otherType => rfl
    | unknown => exact absurd rfl (h _)
  · rintro rfl
    exact .otherType h

/-- Why an object does not meet a requirement. -/
inductive Requirement.Fails (ms : Json.Members) : Requirement → DecodeError → Prop
  | string {field : String} {e : DecodeError} (h : NoString ms field e) :
      Fails ms (.string field) e
  | oneOf {field : String} {names : List String} {e : DecodeError} (h : NoString ms field e) :
      Fails ms (.oneOf field names) e
  | unknown {field text : String} {names : List String}
      (h : ms.get? field = some (.string text)) (hunknown : text ∉ names) :
      Fails ms (.oneOf field names) (.unknownMember field text)
  | notNumber {field : String} {value : Json} (h : ms.get? field = some value)
      (hvalue : ∀ x, value ≠ .number x) : Fails ms (.optionalNumber field) (.notNumeric field)
  | notArray {field : String} {names : List String} {value : Json}
      (h : ms.get? field = some value) (hvalue : ∀ items, value ≠ .array items) :
      Fails ms (.optionalArrayOf field names) (.wrongType field .strings)
  | item {field : String} {names : List String} {items : List Json} {e : DecodeError}
      (h : ms.get? field = some (.array items))
      (hitem : FirstFails (GoodItem names) (BadItem field names) items e) :
      Fails ms (.optionalArrayOf field names) e

/-- What is asked of a message with a tag, in the order in which it is looked at. -/
def requirements : List (String × List Requirement) :=
  [ ("KEYBOARD",
      [ .optionalNumber "timestamp",
        .string "key",
        .oneOf "action" ["DOWN", "UP"],
        .optionalArrayOf "modifiers" ["CMD", "SHIFT", "CTRL", "ALT"] ]),
    ("TRACKPAD",
      [ .optionalNumber "timestamp",
        .oneOf "action" ["MOVE", "CLICK_DOWN", "CLICK_UP", "SCROLL"],
        .optionalNumber "dx",
        .optionalNumber "dy" ]),
    ("SYSTEM",
      [ .optionalNumber "timestamp",
        .oneOf "command" ["LOCK_SCREEN", "SLEEP", "SHOW_POWER_DIALOG"] ]) ]

/-- The first thing that is wrong with a JSON value, if it is to be a message. -/
inductive FirstDefect : Json → DecodeError → Prop
  | notAnObject {value : Json} (h : ∀ ms, value ≠ .object ms) : FirstDefect value .notAnObject
  | eventType {ms : Json.Members} {e : DecodeError} (h : NoString ms "event_type" e) :
      FirstDefect (.object ms) e
  | unknownEventType {ms : Json.Members} {tag : String}
      (h : ms.get? "event_type" = some (.string tag))
      (hunknown : tag ∉ requirements.map Prod.fst) :
      FirstDefect (.object ms) (.unknownEventType tag)
  | requirement {ms : Json.Members} {tag : String} {asked : List Requirement} {e : DecodeError}
      (h : ms.get? "event_type" = some (.string tag)) (hasked : (tag, asked) ∈ requirements)
      (hfirst : FirstFails (Requirement.Met ms) (Requirement.Fails ms) asked e) :
      FirstDefect (.object ms) e

end Schema

/-! ## When a check fails -/

/-- A name that is not found is none of the names. -/
theorem ofWireName?_eq_none {α : Type} [Vocabulary α] {name : String} :
    Vocabulary.ofWireName? α name = none ↔ name ∉ (Vocabulary.all : List α).map wireName := by
  simp [Vocabulary.ofWireName?, List.find?_eq_none]

namespace Decode

variable {ms : Json.Members} {field : String} {e : DecodeError}

theorem string_eq_error : string ms field = .error e ↔ Schema.NoString ms field e := by
  constructor
  · intro h
    unfold string at h
    split at h
    next hget =>
        cases h
        exact .absent hget
    next => cases h
    next value hother hget =>
        cases h
        exact .otherType hget hother
  · intro h
    unfold string
    cases h with
    | absent hget => rw [hget]
    | @otherType value hget hvalue =>
        rw [hget]
        cases value with
        | string text => exact absurd rfl (hvalue text)
        | null | boolean | number | array | object => rfl

theorem string_fails :
    string ms field = .error e ↔ (Schema.Requirement.string field).Fails ms e := by
  rw [string_eq_error]
  constructor
  · exact .string
  · rintro ⟨h⟩
    exact h

/-- A text that is no word is refused. -/
theorem word_unknown {α : Type} [Vocabulary α] {text : String}
    (htext : ms.get? field = some (.string text)) (h : Vocabulary.ofWireName? α text = none) :
    word α ms field = .error (.unknownMember field text) := by
  have hstring : string ms field = .ok text := string_eq_ok.mpr htext
  simp only [word, hstring, h, bind, Except.bind]

theorem word_eq_error {α : Type} [Vocabulary α] {names : List String}
    (hnames : names = (Vocabulary.all : List α).map wireName) :
    word α ms field = .error e ↔ (Schema.Requirement.oneOf field names).Fails ms e := by
  constructor
  · intro h
    obtain hstring | ⟨text, htext, hfound⟩ := bind_eq_error.mp h
    · exact .oneOf (string_eq_error.mp hstring)
    · split at hfound
      next => cases hfound
      next hnone =>
          cases hfound
          exact .unknown (string_eq_ok.mp htext) (hnames ▸ ofWireName?_eq_none.mp hnone)
  · intro h
    cases h with
    | oneOf hstring => exact bind_eq_error.mpr (.inl (string_eq_error.mpr hstring))
    | unknown hget hunknown =>
        exact word_unknown hget (ofWireName?_eq_none.mpr (hnames ▸ hunknown))

theorem distance_eq_error :
    distance ms field = .error e ↔ (Schema.Requirement.optionalNumber field).Fails ms e := by
  constructor
  · intro h
    unfold distance at h
    split at h
    next => cases h
    next => cases h
    next value hother hget =>
        cases h
        exact .notNumber hget hother
  · intro h
    unfold distance
    cases h with
    | @notNumber _ value hget hvalue =>
        rw [hget]
        cases value with
        | number x => exact absurd rfl (hvalue x)
        | null | boolean | string | array | object => rfl

/-- The first item that names no modifier is what the modifiers are refused for. -/
theorem insertModifiers_eq_error {items : List Json} {set : Modifiers} {names : List String}
    (hnames : names = (Vocabulary.all : List Modifier).map wireName) :
    insertModifiers set items = .error e ↔
      FirstFails (Schema.GoodItem names) (Schema.BadItem "modifiers" names) items e := by
  fun_induction insertModifiers set items with
  | case1 set => simp
  | case2 set name items m hfound ih =>
      have hmem : name ∈ names := by
        by_contra hnot
        rw [ofWireName?_eq_none.mpr (hnames ▸ hnot)] at hfound
        cases hfound
      rw [ih, firstFails_cons, Schema.badItem_string, Schema.goodItem_string]
      simp only [hmem, not_true, false_and, false_or, true_and]
  | case3 set name items hnone =>
      have hnot : name ∉ names := hnames ▸ ofWireName?_eq_none.mp hnone
      rw [firstFails_cons, Schema.badItem_string, Schema.goodItem_string]
      simp only [hnot, not_false_iff, true_and, false_and, or_false, Except.error.injEq, eq_comm]
  | case4 set item items hother =>
      have hbad : ¬ Schema.GoodItem names item := fun ⟨name, _, heq⟩ => hother name heq
      rw [firstFails_cons, Schema.badItem_other hother]
      simp only [hbad, false_and, or_false, Except.error.injEq, eq_comm]

theorem modifiers_eq_error {names : List String}
    (hnames : names = (Vocabulary.all : List Modifier).map wireName) :
    modifiers ms = .error e ↔
      (Schema.Requirement.optionalArrayOf "modifiers" names).Fails ms e := by
  constructor
  · intro h
    unfold modifiers at h
    split at h
    next => cases h
    next items hget => exact .item hget ((insertModifiers_eq_error hnames).mp h)
    next value hother hget =>
        cases h
        exact .notArray hget hother
  · intro h
    unfold modifiers
    cases h with
    | item hget hitem =>
        rw [hget]
        exact (insertModifiers_eq_error hnames).mpr hitem
    | @notArray _ _ value hget hvalue =>
        rw [hget]
        cases value with
        | array items => exact absurd rfl (hvalue items)
        | null | boolean | number | string | object => rfl

/-- The kind of a message is refused for its tag. -/
theorem kind_eq_error :
    kind ms = .error e ↔
      Schema.NoString ms "event_type" e ∨ ∃ tag, ms.get? "event_type" = some (.string tag) ∧
        tag ∉ Schema.requirements.map Prod.fst ∧ e = .unknownEventType tag := by
  have hunknown : ∀ tag, Vocabulary.ofWireName? EventKind tag = none ↔
      tag ∉ Schema.requirements.map Prod.fst := fun tag => ofWireName?_eq_none
  rw [kind, bind_eq_error, string_eq_error]
  refine or_congr_right (exists_congr fun tag => ?_)
  rw [string_eq_ok, ← hunknown]
  refine and_congr_right fun _ => ?_
  cases Vocabulary.ofWireName? EventKind tag <;> simp [eq_comm]

theorem keyboard_eq_error : input ms .keyboard = .error e ↔
    string ms "key" = .error e ∨ ∃ key, string ms "key" = .ok key ∧
      (word KeyAction ms "action" = .error e ∨ ∃ action, word KeyAction ms "action" = .ok action ∧
        modifiers ms = .error e) := by
  simp [input, bind_eq_error, pure, Except.pure]

theorem trackpad_eq_error : input ms .trackpad = .error e ↔
    word TrackpadAction ms "action" = .error e ∨
      ∃ action, word TrackpadAction ms "action" = .ok action ∧
        (distance ms "dx" = .error e ∨ ∃ dx, distance ms "dx" = .ok dx ∧
          distance ms "dy" = .error e) := by
  simp [input, bind_eq_error, pure, Except.pure]

theorem system_eq_error :
    input ms .system = .error e ↔ word SystemCommand ms "command" = .error e := by
  simp [input, bind_eq_error, pure, Except.pure]

/-! ## When a check passes -/

theorem exists_string :
    (∃ text, string ms field = .ok text) ↔ (Schema.Requirement.string field).Met ms :=
  exists_congr fun _ => string_eq_ok

theorem exists_word {α : Type} [Vocabulary α] [LawfulVocabulary α] {names : List String}
    (hnames : names = (Vocabulary.all : List α).map wireName) :
    (∃ a : α, word α ms field = .ok a) ↔ (Schema.Requirement.oneOf field names).Met ms := by
  subst hnames
  simp only [word_eq_ok, Schema.Requirement.Met, Schema.IsOneOf]
  constructor
  · rintro ⟨a, hget⟩
    exact ⟨_, List.mem_map_of_mem (LawfulVocabulary.mem_all a), hget⟩
  · rintro ⟨_, hname, hget⟩
    obtain ⟨a, -, rfl⟩ := List.mem_map.mp hname
    exact ⟨a, hget⟩

theorem exists_distance :
    (∃ x, distance ms field = .ok x) ↔ (Schema.Requirement.optionalNumber field).Met ms := by
  simp only [distance_eq_ok]
  exact Schema.exists_isNumber

/-- An input is refused for the first requirement of its kind that is not met. -/
theorem input_eq_error {kind : EventKind} {asked : List Schema.Requirement}
    (h : (wireName kind, .optionalNumber "timestamp" :: asked) ∈ Schema.requirements) :
    input ms kind = .error e ↔
      FirstFails (Schema.Requirement.Met ms) (Schema.Requirement.Fails ms) asked e := by
  cases kind with
  | keyboard =>
      obtain rfl : asked = _ := by simpa [Schema.requirements, wireName] using h
      simp only [keyboard_eq_error, firstFails_cons, firstFails_nil, and_false, or_false,
        exists_and_right, exists_string, exists_word (α := KeyAction) rfl, string_fails,
        word_eq_error (α := KeyAction) rfl, modifiers_eq_error rfl]
      rfl
  | trackpad =>
      obtain rfl : asked = _ := by simpa [Schema.requirements, wireName] using h
      simp only [trackpad_eq_error, firstFails_cons, firstFails_nil, and_false, or_false,
        exists_and_right, exists_distance, exists_word (α := TrackpadAction) rfl,
        word_eq_error (α := TrackpadAction) rfl, distance_eq_error]
      rfl
  | system =>
      obtain rfl : asked = _ := by simpa [Schema.requirements, wireName] using h
      simp only [system_eq_error, firstFails_cons, firstFails_nil, and_false, or_false,
        word_eq_error (α := SystemCommand) rfl]
      rfl

end Decode

/-! ## When a message is refused -/

/-- An object is refused for its kind, or else for its time, or else for its input. -/
theorem decode_object_eq_error {ms : Json.Members} {receivedAt : Float} {e : DecodeError} :
    (Event.decode (.object ms) receivedAt).result = .error e ↔
      Decode.kind ms = .error e ∨ ∃ kind, Decode.kind ms = .ok kind ∧
        ((Schema.Requirement.optionalNumber "timestamp").Fails ms e ∨
          (Schema.Requirement.optionalNumber "timestamp").Met ms ∧
            Decode.input ms kind = .error e) := by
  have hmap : ∀ (x : Except DecodeError Input) (stamp : Float),
      x.map (⟨stamp, ·⟩ : Input → Event) = .error e ↔ x = .error e := by
    intro x stamp
    cases x <;> simp [Except.map]
  -- A time is read as a distance is, but for the one that stands in for it.
  simp only [← Decode.distance_eq_error, ← Decode.exists_distance, Event.decode, Decode.distance]
  cases Decode.kind ms with
  | error e' => simp
  | ok kind =>
      cases ms.get? "timestamp" with
      | none => simp [hmap]
      | some value => cases value <;> simp [hmap]

theorem exists_asked (kind : EventKind) : ∃ asked,
    (wireName kind, Schema.Requirement.optionalNumber "timestamp" :: asked) ∈
      Schema.requirements := by
  cases kind <;> simp [Schema.requirements, wireName]

/-- The messages of a tag are those of a kind, and the first thing that is asked of them is a
time. -/
theorem kind_of_mem_requirements {tag : String} {asked : List Schema.Requirement}
    (h : (tag, asked) ∈ Schema.requirements) :
    ∃ (kind : EventKind) (rest : List Schema.Requirement),
      tag = wireName kind ∧ asked = .optionalNumber "timestamp" :: rest := by
  simp only [Schema.requirements, List.mem_cons, Prod.mk.injEq, List.not_mem_nil, or_false] at h
  obtain ⟨rfl, rfl⟩ | ⟨rfl, rfl⟩ | ⟨rfl, rfl⟩ := h
  · exact ⟨.keyboard, _, rfl, rfl⟩
  · exact ⟨.trackpad, _, rfl, rfl⟩
  · exact ⟨.system, _, rfl, rfl⟩

theorem decode_eq_error {value : Json} {receivedAt : Float} {e : DecodeError} :
    (Event.decode value receivedAt).result = .error e ↔ Schema.FirstDefect value e := by
  constructor
  · intro h
    cases value with
    | null | boolean | number | string | array =>
        cases h
        exact .notAnObject nofun
    | object ms =>
        obtain hkind | ⟨kind, hkind, hrest⟩ := decode_object_eq_error.mp h
        · obtain hstring | ⟨tag, hget, hunknown, rfl⟩ := Decode.kind_eq_error.mp hkind
          · exact .eventType hstring
          · exact .unknownEventType hget hunknown
        · obtain ⟨asked, hasked⟩ := exists_asked kind
          rw [Decode.input_eq_error hasked, ← firstFails_cons] at hrest
          exact .requirement (Decode.kind_eq_ok.mp hkind) hasked hrest
  · intro h
    cases h with
    | notAnObject hobject =>
        cases value with
        | object ms => exact absurd rfl (hobject ms)
        | null | boolean | number | string | array => rfl
    | eventType hstring =>
        exact decode_object_eq_error.mpr (.inl (Decode.kind_eq_error.mpr (.inl hstring)))
    | unknownEventType hget hunknown =>
        exact decode_object_eq_error.mpr
          (.inl (Decode.kind_eq_error.mpr (.inr ⟨_, hget, hunknown, rfl⟩)))
    | requirement hget hasked hfirst =>
        obtain ⟨kind, rest, rfl, rfl⟩ := kind_of_mem_requirements hasked
        rw [firstFails_cons, ← Decode.input_eq_error hasked] at hfirst
        exact decode_object_eq_error.mpr (.inr ⟨kind, Decode.kind_eq_ok.mpr hget, hfirst⟩)

/-- Whenever a JSON value is received, it is refused for its first defect, and accepted if it has
none. -/
theorem decode_reports_firstDefect (value : Json) (receivedAt : Float) :
    (∀ e, (Event.decode value receivedAt).result = .error e ↔ Schema.FirstDefect value e) ∧
      ((∃ event, (Event.decode value receivedAt).result = .ok event) ↔
        ∀ e, ¬ Schema.FirstDefect value e) := by
  refine ⟨fun e => decode_eq_error, ?_⟩
  simp only [← @decode_eq_error value receivedAt]
  cases (Event.decode value receivedAt).result <;> simp

/-- A message without a key, with an action that is none and with a time that is no number is
refused for its time. -/
example : (Event.decode (.object [("timestamp", .null), ("event_type", .string "KEYBOARD"),
    ("action", .string "HOLD")]) 0).result = .error (.notNumeric "timestamp") := rfl

end RemoteInput
