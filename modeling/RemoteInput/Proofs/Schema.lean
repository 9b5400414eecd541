import RemoteInput.Event.Modifiers
import RemoteInput.Proofs.Messages
import RemoteInput.Proofs.Basics

/-!
# The schema of a message

What an object has to hold to be a message is said here without the decoder, with
the words of the wire format spelled out: `Valid` for the object alone, and
`StandsFor` for the event that it stands for.  The decoder accepts exactly the
valid objects, and gives exactly the event that the object stands for
(`decode_follows_schema`).

Each check of the decoder has a lemma that says when it succeeds and with what
(`string_eq_ok`, `word_eq_ok`, `distance_eq_ok`, `modifiers_eq_ok`).  The order of
the checks decides only which error is given, so it plays no part here.
-/

namespace RemoteInput

/-! ## What an object holds -/

namespace Schema

/-- What is done to a key, by name. -/
def keyActions : List (String × KeyAction) := [("DOWN", .down), ("UP", .up)]

/-- The keys that may be held, by name. -/
def modifiers : List (String × Modifier) :=
  [("CMD", .cmd), ("SHIFT", .shift), ("CTRL", .ctrl), ("ALT", .alt)]

/-- What is done on the trackpad, by name. -/
def trackpadActions : List (String × TrackpadAction) :=
  [("MOVE", .move), ("CLICK_DOWN", .clickDown), ("CLICK_UP", .clickUp), ("SCROLL", .scroll)]

/-- What the machine can be asked for, by name. -/
def commands : List (String × SystemCommand) :=
  [("LOCK_SCREEN", .lockScreen), ("SLEEP", .sleep), ("SHOW_POWER_DIALOG", .showPowerDialog)]

variable {α : Type} {ms : Json.Members} {field : String}

/-- The member is the string that a table has for a word. -/
def IsWord (ms : Json.Members) (field : String) (table : List (String × α)) (word : α) : Prop :=
  ∃ name, (name, word) ∈ table ∧ ms.get? field = some (.string name)

/-- The member is a number, or it is left out and the number is a given one. -/
def IsNumber (ms : Json.Members) (field : String) (default x : Float) : Prop :=
  ms.get? field = some (.number x) ∨ ms.get? field = none ∧ x = default

/-- The items are names of modifiers, and the modifiers that they name are those of a set. -/
def AreModifiers (items : List Json) (set : Modifiers) : Prop :=
  (∀ item ∈ items, ∃ entry ∈ modifiers, item = .string entry.1) ∧
    ∀ entry ∈ modifiers, set.contains entry.2 = true ↔ .string entry.1 ∈ items

/-- The member is an array that names the modifiers of a set, or it is left out and the set is
empty. -/
def IsModifiers (ms : Json.Members) (set : Modifiers) : Prop :=
  (∃ items, ms.get? "modifiers" = some (.array items) ∧ AreModifiers items set) ∨
    ms.get? "modifiers" = none ∧ set = ∅

/-- The events that an object stands for when it is received at a time. -/
inductive StandsFor (ms : Json.Members) (receivedAt : Float) : Event → Prop
  | keyboard {time : Float} {name : String} {change : KeyAction} {held : Modifiers}
      (kind : ms.get? "event_type" = some (.string "KEYBOARD"))
      (timestamp : IsNumber ms "timestamp" receivedAt time)
      (key : ms.get? "key" = some (.string name))
      (action : IsWord ms "action" keyActions change)
      (modifiers : IsModifiers ms held) :
      StandsFor ms receivedAt ⟨time, .keyboard name change held⟩
  | trackpad {time x y : Float} {gesture : TrackpadAction}
      (kind : ms.get? "event_type" = some (.string "TRACKPAD"))
      (timestamp : IsNumber ms "timestamp" receivedAt time)
      (action : IsWord ms "action" trackpadActions gesture)
      (dx : IsNumber ms "dx" 0 x)
      (dy : IsNumber ms "dy" 0 y) :
      StandsFor ms receivedAt ⟨time, .trackpad gesture x y⟩
  | system {time : Float} {request : SystemCommand}
      (kind : ms.get? "event_type" = some (.string "SYSTEM"))
      (timestamp : IsNumber ms "timestamp" receivedAt time)
      (command : IsWord ms "command" commands request) :
      StandsFor ms receivedAt ⟨time, .system request⟩

/-! ## Which objects are messages -/

/-- The member is one of some strings. -/
def IsOneOf (ms : Json.Members) (field : String) (names : List String) : Prop :=
  ∃ name ∈ names, ms.get? field = some (.string name)

/-- The member is a number if it is there. -/
def MayBeNumber (ms : Json.Members) (field : String) : Prop :=
  ∀ value, ms.get? field = some value → ∃ x, value = .number x

/-- The member is an array of some strings if it is there. -/
def MayBeArrayOf (ms : Json.Members) (field : String) (names : List String) : Prop :=
  ∀ value, ms.get? field = some value →
    ∃ items, value = .array items ∧ ∀ item ∈ items, ∃ name ∈ names, item = .string name

/-- The objects that are messages. -/
inductive Valid (ms : Json.Members) : Prop
  | keyboard (kind : ms.get? "event_type" = some (.string "KEYBOARD"))
      (timestamp : MayBeNumber ms "timestamp")
      (key : ∃ name, ms.get? "key" = some (.string name))
      (action : IsOneOf ms "action" ["DOWN", "UP"])
      (modifiers : MayBeArrayOf ms "modifiers" ["CMD", "SHIFT", "CTRL", "ALT"])
  | trackpad (kind : ms.get? "event_type" = some (.string "TRACKPAD"))
      (timestamp : MayBeNumber ms "timestamp")
      (action : IsOneOf ms "action" ["MOVE", "CLICK_DOWN", "CLICK_UP", "SCROLL"])
      (dx : MayBeNumber ms "dx")
      (dy : MayBeNumber ms "dy")
  | system (kind : ms.get? "event_type" = some (.string "SYSTEM"))
      (timestamp : MayBeNumber ms "timestamp")
      (command : IsOneOf ms "command" ["LOCK_SCREEN", "SLEEP", "SHOW_POWER_DIALOG"])

theorem exists_isNumber {default : Float} :
    (∃ x, IsNumber ms field default x) ↔ MayBeNumber ms field := by
  constructor
  · rintro ⟨x, hx | ⟨hnone, -⟩⟩ value hvalue
    · exact ⟨x, Option.some.inj (hvalue.symm.trans hx)⟩
    · rw [hnone] at hvalue
      cases hvalue
  · intro h
    cases hget : ms.get? field with
    | none => exact ⟨default, .inr ⟨hget, rfl⟩⟩
    | some value =>
        obtain ⟨x, rfl⟩ := h value hget
        exact ⟨x, .inl hget⟩

theorem exists_isWord (table : List (String × α)) :
    (∃ word, IsWord ms field table word) ↔ IsOneOf ms field (table.map Prod.fst) := by
  constructor
  · rintro ⟨word, name, hmem, hget⟩
    exact ⟨name, List.mem_map_of_mem hmem, hget⟩
  · rintro ⟨name, hmem, hget⟩
    obtain ⟨⟨name, word⟩, hentry, rfl⟩ := List.mem_map.mp hmem
    exact ⟨word, name, hentry, hget⟩

/-- The table of a vocabulary has each of its words under its wire name. -/
theorem isWord_iff [Vocabulary α] [LawfulVocabulary α] (table : List (String × α))
    (htable : table = Vocabulary.all.map fun word => (wireName word, word)) {word : α} :
    IsWord ms field table word ↔ ms.get? field = some (.string (wireName word)) := by
  subst htable
  constructor
  · rintro ⟨name, hmem, hget⟩
    obtain ⟨word', -, heq⟩ := List.mem_map.mp hmem
    cases heq
    exact hget
  · intro hget
    exact ⟨wireName word, List.mem_map_of_mem (LawfulVocabulary.mem_all word), hget⟩

end Schema

/-! ## Sets of modifiers -/

namespace Modifiers

/-- A set has the member that was added and those it had. -/
theorem contains_insert (set : Modifiers) (m m' : Modifier) :
    (set.insert m).contains m' = true ↔ set.contains m' = true ∨ m' = m := by
  revert set
  exact forall_of_masks (by cases m <;> cases m' <;> decide)

/-- A set made of a list has the members of the list. -/
theorem contains_ofList (names : List Modifier) (m : Modifier) :
    (ofList names).contains m = true ↔ m ∈ names := by
  have hfold : ∀ set : Modifiers, (names.foldl insert set).contains m = true ↔
      set.contains m = true ∨ m ∈ names := by
    induction names with
    | nil => simp
    | cons name names ih =>
        intro set
        rw [List.foldl_cons, ih, contains_insert, List.mem_cons, or_assoc]
  have hempty : empty.contains m = false := by cases m <;> rfl
  rw [ofList, hfold, hempty]
  simp

/-- Two sets with the same members are equal. -/
theorem eq_of_contains {set set' : Modifiers}
    (h : ∀ m, set.contains m = true ↔ set'.contains m = true) : set = set' := by
  have hcontains : set.contains = set'.contains := funext fun m => Bool.eq_iff_iff.mpr (h m)
  rw [← ofList_toList set, ← ofList_toList set', toList, toList, hcontains]

end Modifiers

namespace Schema

/-- The item that names a modifier. -/
def item (m : Modifier) : Json := .string (wireName m)

theorem mem_modifiers {entry : String × Modifier} :
    entry ∈ modifiers ↔ ∃ m, entry = (wireName m, m) := by
  constructor
  · intro hmem
    have hmem' : entry ∈ Vocabulary.all.map fun m : Modifier => (wireName m, m) := hmem
    obtain ⟨m, -, rfl⟩ := List.mem_map.mp hmem'
    exact ⟨m, rfl⟩
  · rintro ⟨m, rfl⟩
    cases m <;> decide

theorem item_mem_map {m : Modifier} {names : List Modifier} :
    item m ∈ names.map item ↔ m ∈ names := by
  constructor
  · intro hmem
    obtain ⟨m', hm', heq⟩ := List.mem_map.mp hmem
    rwa [← LawfulVocabulary.wireName_injective m' m (Json.string.inj heq)]
  · exact List.mem_map_of_mem

/-- Items that are names of modifiers are those of a list of modifiers. -/
theorem exists_names {items : List Json}
    (h : ∀ v ∈ items, ∃ entry ∈ modifiers, v = .string entry.1) :
    ∃ names : List Modifier, items = names.map item := by
  induction items with
  | nil => exact ⟨[], rfl⟩
  | cons v items ih =>
      obtain ⟨names, rfl⟩ := ih fun v' hv' => h v' (List.mem_cons_of_mem v hv')
      obtain ⟨entry, hentry, rfl⟩ := h v (List.mem_cons_self ..)
      obtain ⟨m, rfl⟩ := mem_modifiers.mp hentry
      exact ⟨m :: names, rfl⟩

/-- Items name the modifiers of a set if they are the names of a list that makes the set. -/
theorem areModifiers_iff {items : List Json} {set : Modifiers} :
    AreModifiers items set ↔ ∃ names, items = names.map item ∧ set = .ofList names := by
  constructor
  · rintro ⟨hitems, hset⟩
    obtain ⟨names, rfl⟩ := exists_names hitems
    refine ⟨names, rfl, Modifiers.eq_of_contains fun m => ?_⟩
    rw [Modifiers.contains_ofList, ← item_mem_map]
    exact hset (wireName m, m) (mem_modifiers.mpr ⟨m, rfl⟩)
  · rintro ⟨names, rfl, rfl⟩
    refine ⟨fun v hv => ?_, fun entry hentry => ?_⟩
    · obtain ⟨m, -, rfl⟩ := List.mem_map.mp hv
      exact ⟨_, mem_modifiers.mpr ⟨m, rfl⟩, rfl⟩
    · obtain ⟨m, rfl⟩ := mem_modifiers.mp hentry
      exact (Modifiers.contains_ofList names m).trans item_mem_map.symm

theorem exists_isModifiers {ms : Json.Members} :
    (∃ held, IsModifiers ms held) ↔ MayBeArrayOf ms "modifiers" (modifiers.map Prod.fst) := by
  constructor
  · rintro ⟨held, ⟨items, hget, hitems, -⟩ | ⟨hnone, -⟩⟩ value hvalue
    · refine ⟨items, Option.some.inj (hvalue.symm.trans hget), fun v hv => ?_⟩
      obtain ⟨entry, hentry, hitem⟩ := hitems v hv
      exact ⟨entry.1, List.mem_map_of_mem hentry, hitem⟩
    · rw [hnone] at hvalue
      cases hvalue
  · intro h
    cases hget : ms.get? "modifiers" with
    | none => exact ⟨∅, .inr ⟨hget, rfl⟩⟩
    | some value =>
        obtain ⟨items, rfl, hitems⟩ := h value hget
        obtain ⟨names, hnames⟩ := exists_names fun v hv => by
          obtain ⟨name, hname, hitem⟩ := hitems v hv
          obtain ⟨entry, hentry, rfl⟩ := List.mem_map.mp hname
          exact ⟨entry, hentry, hitem⟩
        exact ⟨.ofList names, .inl ⟨items, hget, areModifiers_iff.mpr ⟨names, hnames, rfl⟩⟩⟩

/-- An object stands for an event if it is valid. -/
theorem exists_standsFor {ms : Json.Members} (receivedAt : Float) :
    (∃ e, StandsFor ms receivedAt e) ↔ Valid ms := by
  constructor
  · rintro ⟨_, h⟩
    cases h with
    | keyboard kind timestamp key action modifiers =>
        exact .keyboard kind (exists_isNumber.mp ⟨_, timestamp⟩) ⟨_, key⟩
          ((exists_isWord keyActions).mp ⟨_, action⟩) (exists_isModifiers.mp ⟨_, modifiers⟩)
    | trackpad kind timestamp action dx dy =>
        exact .trackpad kind (exists_isNumber.mp ⟨_, timestamp⟩)
          ((exists_isWord trackpadActions).mp ⟨_, action⟩) (exists_isNumber.mp ⟨_, dx⟩)
          (exists_isNumber.mp ⟨_, dy⟩)
    | system kind timestamp command =>
        exact .system kind (exists_isNumber.mp ⟨_, timestamp⟩)
          ((exists_isWord commands).mp ⟨_, command⟩)
  · intro h
    cases h with
    | keyboard kind timestamp key action modifiers =>
        obtain ⟨time, htime⟩ := exists_isNumber.mpr timestamp
        obtain ⟨name, hname⟩ := key
        obtain ⟨change, hchange⟩ := (exists_isWord keyActions).mpr action
        obtain ⟨held, hheld⟩ := exists_isModifiers.mpr modifiers
        exact ⟨_, .keyboard kind htime hname hchange hheld⟩
    | trackpad kind timestamp action dx dy =>
        obtain ⟨time, htime⟩ := exists_isNumber.mpr timestamp
        obtain ⟨gesture, hgesture⟩ := (exists_isWord trackpadActions).mpr action
        obtain ⟨x, hx⟩ := exists_isNumber.mpr dx
        obtain ⟨y, hy⟩ := exists_isNumber.mpr dy
        exact ⟨_, .trackpad kind htime hgesture hx hy⟩
    | system kind timestamp command =>
        obtain ⟨time, htime⟩ := exists_isNumber.mpr timestamp
        obtain ⟨request, hrequest⟩ := (exists_isWord commands).mpr command
        exact ⟨_, .system kind htime hrequest⟩

end Schema

/-! ## When a check succeeds -/

namespace Decode

variable {ms : Json.Members} {field : String}

theorem string_eq_ok {text : String} :
    string ms field = .ok text ↔ ms.get? field = some (.string text) := by
  unfold string
  split
  next hget => simp [hget]
  next found hget => simp [hget]
  next value hother hget =>
      simp only [hget, reduceCtorEq, Option.some.injEq, false_iff]
      exact hother text

/-- A string that is looked up in a vocabulary, whatever the error is if it is not there. -/
theorem named_eq_ok {α : Type} [Vocabulary α] [LawfulVocabulary α]
    {find : String → Except DecodeError α}
    (hfind : ∀ name, (find name).toOption = Vocabulary.ofWireName? α name) {a : α} :
    (string ms field >>= find) = .ok a ↔ ms.get? field = some (.string (wireName a)) := by
  have hfound : ∀ name, find name = .ok a ↔ wireName a = name := by
    intro name
    rw [← ofWireName?_eq_some, ← hfind]
    cases find name <;> simp [Except.toOption]
  simp only [bind_eq_ok, string_eq_ok, hfound, exists_eq_right']

theorem word_eq_ok {α : Type} [Vocabulary α] [LawfulVocabulary α] {a : α} :
    word α ms field = .ok a ↔ ms.get? field = some (.string (wireName a)) :=
  named_eq_ok fun name => by cases Vocabulary.ofWireName? α name <;> rfl

theorem kind_eq_ok {k : EventKind} :
    kind ms = .ok k ↔ ms.get? "event_type" = some (.string (wireName k)) :=
  named_eq_ok fun name => by cases Vocabulary.ofWireName? EventKind name <;> rfl

theorem distance_eq_ok {x : Float} :
    distance ms field = .ok x ↔ Schema.IsNumber ms field 0 x := by
  unfold distance Schema.IsNumber
  split
  next hget => simp [hget, eq_comm]
  next y hget => simp [hget]
  next value hother hget =>
      simp only [hget, reduceCtorEq, Option.some.injEq, false_and, or_false, false_iff]
      exact hother x

/-- Adding the modifiers that items name succeeds if every item is the name of one. -/
theorem insertModifiers_eq_ok {items : List Json} {set set' : Modifiers} :
    insertModifiers set items = .ok set' ↔
      ∃ names : List Modifier,
        items = names.map Schema.item ∧ set' = names.foldl Modifiers.insert set := by
  constructor
  · intro h
    induction items generalizing set with
    | nil => exact ⟨[], rfl, (Except.ok.inj h).symm⟩
    | cons item items ih =>
        unfold insertModifiers at h
        split at h
        next heq => cases heq
        next name items' heq =>
            cases heq
            cases hfound : Vocabulary.ofWireName? Modifier name with
            | none => simp [hfound] at h
            | some m =>
                rw [hfound] at h
                obtain ⟨names, rfl, hset⟩ := ih h
                refine ⟨m :: names, ?_, hset⟩
                rw [List.map_cons, Schema.item, ofWireName?_eq_some.mp hfound]
        next => cases h
  · rintro ⟨names, rfl, rfl⟩
    exact insertModifiers_names names set

theorem modifiers_eq_ok {set : Modifiers} :
    modifiers ms = .ok set ↔ Schema.IsModifiers ms set := by
  unfold modifiers Schema.IsModifiers
  split
  next hget => simp [hget, eq_comm]
  next items hget =>
      rw [insertModifiers_eq_ok, hget]
      simp only [Option.some.injEq, Json.array.injEq, reduceCtorEq, false_and, or_false,
        exists_eq_left', Schema.areModifiers_iff]
      rfl
  next value hother hget =>
      simp only [hget, reduceCtorEq, Option.some.injEq, false_and, or_false, false_iff]
      rintro ⟨items, rfl, -⟩
      exact hother items rfl

theorem keyboard_eq_ok {i : Input} :
    input ms .keyboard = .ok i ↔
      ∃ name change held, ms.get? "key" = some (.string name) ∧
        Schema.IsWord ms "action" Schema.keyActions change ∧ Schema.IsModifiers ms held ∧
        .keyboard name change held = i := by
  simp only [input, bind_eq_ok, string_eq_ok, word_eq_ok, modifiers_eq_ok,
    Schema.isWord_iff Schema.keyActions rfl, pure, Except.pure, Except.ok.injEq,
    exists_and_left]

theorem trackpad_eq_ok {i : Input} :
    input ms .trackpad = .ok i ↔
      ∃ gesture x y, Schema.IsWord ms "action" Schema.trackpadActions gesture ∧
        Schema.IsNumber ms "dx" 0 x ∧ Schema.IsNumber ms "dy" 0 y ∧
        .trackpad gesture x y = i := by
  simp only [input, bind_eq_ok, word_eq_ok, distance_eq_ok,
    Schema.isWord_iff Schema.trackpadActions rfl, pure, Except.pure, Except.ok.injEq,
    exists_and_left]

theorem system_eq_ok {i : Input} :
    input ms .system = .ok i ↔
      ∃ request, Schema.IsWord ms "command" Schema.commands request ∧ .system request = i := by
  simp only [input, bind_eq_ok, word_eq_ok, Schema.isWord_iff Schema.commands rfl, pure,
    Except.pure, Except.ok.injEq]

end Decode

/-! ## When a message is accepted -/

/-- An object is accepted if its kind, its time and its input are. -/
theorem decode_object_eq_ok {ms : Json.Members} {receivedAt : Float} {e : Event} :
    (Event.decode (.object ms) receivedAt).result = .ok e ↔
      ∃ k, ms.get? "event_type" = some (.string (wireName k)) ∧
        Schema.IsNumber ms "timestamp" receivedAt e.timestamp ∧
        Decode.input ms k = .ok e.input := by
  -- With a time at hand, only the input can still fail.
  have htimed : ∀ (time : Float) (k : EventKind),
      (Decode.input ms k).map (⟨time, ·⟩) = .ok e ↔
        e.timestamp = time ∧ Decode.input ms k = .ok e.input := by
    intro time k
    obtain ⟨timestamp, i⟩ := e
    cases Decode.input ms k with
    | error error => simp [Except.map]
    | ok i' => simp [Except.map, @eq_comm _ time]
  simp only [← Decode.kind_eq_ok, Event.decode]
  cases Decode.kind ms with
  | error error => simp
  | ok k =>
      simp only [Except.ok.injEq, exists_eq_left', Schema.IsNumber]
      split
      next hget => simp only [hget, htimed, reduceCtorEq, false_or, true_and]
      next time hget => simp only [hget, htimed, Option.some.injEq, Json.number.injEq,
          reduceCtorEq, false_and, or_false, @eq_comm _ time]
      next value habsent hnumber hget =>
          simp only [hget, reduceCtorEq, Option.some.injEq, false_and, or_false, false_iff, not_and]
          intro hvalue
          exact absurd hvalue (hnumber _)

theorem decode_eq_ok {value : Json} {receivedAt : Float} {e : Event} :
    (Event.decode value receivedAt).result = .ok e ↔
      ∃ ms, value = .object ms ∧ Schema.StandsFor ms receivedAt e := by
  cases value with
  | object ms =>
      simp only [Json.object.injEq, exists_eq_left', decode_object_eq_ok]
      constructor
      · rintro ⟨k, hkind, htime, hinput⟩
        obtain ⟨time, i⟩ := e
        cases k with
        | keyboard =>
            obtain ⟨name, change, held, hkey, haction, hheld, rfl⟩ :=
              Decode.keyboard_eq_ok.mp hinput
            exact .keyboard hkind htime hkey haction hheld
        | trackpad =>
            obtain ⟨gesture, x, y, haction, hx, hy, rfl⟩ := Decode.trackpad_eq_ok.mp hinput
            exact .trackpad hkind htime haction hx hy
        | system =>
            obtain ⟨request, hcommand, rfl⟩ := Decode.system_eq_ok.mp hinput
            exact .system hkind htime hcommand
      · intro h
        cases h with
        | keyboard hkind htime hkey haction hheld =>
            exact ⟨.keyboard, hkind, htime,
              Decode.keyboard_eq_ok.mpr ⟨_, _, _, hkey, haction, hheld, rfl⟩⟩
        | trackpad hkind htime haction hx hy =>
            exact ⟨.trackpad, hkind, htime,
              Decode.trackpad_eq_ok.mpr ⟨_, _, _, haction, hx, hy, rfl⟩⟩
        | system hkind htime hcommand =>
            exact ⟨.system, hkind, htime, Decode.system_eq_ok.mpr ⟨_, hcommand, rfl⟩⟩
  | null => simp [Event.decode]
  | boolean => simp [Event.decode]
  | number => simp [Event.decode]
  | string => simp [Event.decode]
  | array => simp [Event.decode]

/-- The decoder gives the event that an object stands for, and accepts a value only if it is a valid
object. -/
theorem decode_follows_schema (value : Json) (receivedAt : Float) :
    (∀ e, (Event.decode value receivedAt).result = .ok e ↔
        ∃ ms, value = .object ms ∧ Schema.StandsFor ms receivedAt e) ∧
      ((∃ e, (Event.decode value receivedAt).result = .ok e) ↔
        ∃ ms, value = .object ms ∧ Schema.Valid ms) := by
  refine ⟨fun e => decode_eq_ok, ?_⟩
  simp only [decode_eq_ok, ← Schema.exists_standsFor receivedAt]
  exact ⟨fun ⟨e, ms, hvalue, h⟩ => ⟨ms, hvalue, e, h⟩, fun ⟨ms, hvalue, e, h⟩ => ⟨e, ms, hvalue, h⟩⟩

end RemoteInput
