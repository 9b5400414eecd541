import RemoteInput.Event.Decode
import RemoteInput.Proofs.Written

/-!
# Reading written events back

An event stands for an object with a member for each of its parts
(`Event.members`), and the checks of the decoder find the parts again
(`decode_members`).  What is written of an event is that object, number by number
as it is printed (`Event.fields`).  So decoding a written event gives the event
with its numbers read back, or a syntax error if one of them is not read
(`decodeLine_body`, `decodeLine_unread`).

A key may hold any character.  What is written of it holds no control character,
since the writer escapes each of them (`Event.le_of_mem_body`).
-/

namespace RemoteInput

/-! ## Vocabularies -/

/-- A vocabulary that lists all its words and gives each a name of its own. -/
class LawfulVocabulary (α : Type) [Vocabulary α] : Prop where
  mem_all : ∀ word : α, word ∈ (Vocabulary.all : List α)
  wireName_injective : ∀ word word' : α, wireName word = wireName word' → word = word'

instance : LawfulVocabulary EventKind where
  mem_all word := by cases word <;> decide
  wireName_injective word word' := by cases word <;> cases word' <;> decide

instance : LawfulVocabulary KeyAction where
  mem_all word := by cases word <;> decide
  wireName_injective word word' := by cases word <;> cases word' <;> decide

instance : LawfulVocabulary Modifier where
  mem_all word := by cases word <;> decide
  wireName_injective word word' := by cases word <;> cases word' <;> decide

instance : LawfulVocabulary TrackpadAction where
  mem_all word := by cases word <;> decide
  wireName_injective word word' := by cases word <;> cases word' <;> decide

instance : LawfulVocabulary SystemCommand where
  mem_all word := by cases word <;> decide
  wireName_injective word word' := by cases word <;> cases word' <;> decide

/-- A name is the name of at most one word, and that word is found. -/
theorem ofWireName?_eq_some {α : Type} [Vocabulary α] [LawfulVocabulary α] {name : String}
    {word : α} : Vocabulary.ofWireName? α name = some word ↔ wireName word = name := by
  rw [Vocabulary.ofWireName?]
  constructor
  · intro hfound
    simpa using List.find?_some hfound
  · rintro rfl
    cases hfound : (Vocabulary.all : List α).find? fun word' => wireName word' == wireName word with
    | none =>
        have hnone := List.find?_eq_none.mp hfound word (LawfulVocabulary.mem_all word)
        simp at hnone
    | some word' =>
        have hname : wireName word' = wireName word := by simpa using List.find?_some hfound
        rw [LawfulVocabulary.wireName_injective word' word hname]

@[simp] theorem ofWireName?_wireName {α : Type} [Vocabulary α] [LawfulVocabulary α] (word : α) :
    Vocabulary.ofWireName? α (wireName word) = some word :=
  ofWireName?_eq_some.mpr rfl

/-! ## Modifiers -/

/-- What holds of the set of each of the sixteen masks holds of every set. -/
theorem Modifiers.forall_of_masks {P : Modifiers → Prop}
    (h : ∀ n : Fin 16, ∀ hn : UInt8.ofNat n < 16, P ⟨UInt8.ofNat n, hn⟩) (set : Modifiers) :
    P set := by
  obtain ⟨mask, hmask⟩ := set
  have hset := h ⟨mask.toNat, UInt8.lt_iff_toNat_lt.mp hmask⟩
  simp only [UInt8.ofNat_toNat] at hset
  exact hset hmask

/-- The set of the members of a set is that set. -/
theorem Modifiers.ofList_toList (set : Modifiers) : ofList set.toList = set := by
  revert set
  exact forall_of_masks (by decide)

theorem insertModifiers_names (ms : List Modifier) (set : Modifiers) :
    Decode.insertModifiers set (ms.map fun m => .string (wireName m)) =
      .ok (ms.foldl Modifiers.insert set) := by
  induction ms generalizing set with
  | nil => rfl
  | cons m ms ih =>
      rw [List.map_cons, Decode.insertModifiers, ofWireName?_wireName]
      exact ih (set.insert m)

/-! ## Events as objects -/

/-- The members of the message of an input. -/
def Input.members : Input → Json.Members
  | .keyboard key action modifiers =>
    [ ("key", .string key),
      ("action", .string (wireName action)),
      ("modifiers", .array (modifiers.toList.map fun m => .string (wireName m))) ]
  | .trackpad action dx dy =>
    [("action", .string (wireName action)), ("dx", .number dx), ("dy", .number dy)]
  | .system command => [("command", .string (wireName command))]

/-- The members of the message of an event. -/
def Event.members (e : Event) : Json.Members :=
  ("event_type", .string (wireName e.kind)) :: ("timestamp", .number e.timestamp) ::
    e.input.members

/-- The decoder finds the parts of an input in its message. -/
theorem input_members (e : Event) : Decode.input e.members e.kind = .ok e.input := by
  obtain ⟨timestamp, input⟩ := e
  cases input with
  | keyboard key action modifiers =>
      have hmodifiers : Decode.insertModifiers ∅
          (modifiers.toList.map fun m => .string (wireName m)) = .ok modifiers := by
        rw [insertModifiers_names]
        exact congrArg _ (Modifiers.ofList_toList modifiers)
      simp [Event.kind, Input.kind, Event.members, Input.members, Decode.input, Decode.string,
        Decode.word, Decode.modifiers, Json.Members.get?, hmodifiers, bind, Except.bind, pure,
        Except.pure]
  | trackpad action dx dy =>
      simp [Event.kind, Input.kind, Event.members, Input.members, Decode.input, Decode.string,
        Decode.word, Decode.distance, Json.Members.get?, bind, Except.bind, pure, Except.pure]
  | system command =>
      simp [Event.kind, Input.kind, Event.members, Input.members, Decode.input, Decode.string,
        Decode.word, Json.Members.get?, bind, Except.bind, pure, Except.pure]

theorem kind_members (e : Event) : Decode.kind e.members = .ok e.kind := by
  obtain ⟨timestamp, input⟩ := e
  cases input with
  | keyboard key action modifiers =>
      simp [Event.members, Input.members, Decode.kind, Decode.string, Json.Members.get?, bind,
        Except.bind]
  | trackpad action dx dy =>
      simp [Event.members, Input.members, Decode.kind, Decode.string, Json.Members.get?, bind,
        Except.bind]
  | system command =>
      simp [Event.members, Input.members, Decode.kind, Decode.string, Json.Members.get?, bind,
        Except.bind]

theorem timestamp_members (e : Event) :
    Json.Members.get? e.members "timestamp" = some (.number e.timestamp) := by
  obtain ⟨timestamp, input⟩ := e
  cases input with
  | keyboard key action modifiers => simp [Event.members, Input.members, Json.Members.get?]
  | trackpad action dx dy => simp [Event.members, Input.members, Json.Members.get?]
  | system command => simp [Event.members, Input.members, Json.Members.get?]

/-- The decoder makes an event of its message. -/
theorem decode_members (e : Event) (receivedAt : Float) :
    Event.decode (.object e.members) receivedAt = ⟨false, .ok e⟩ := by
  simp only [Event.decode, kind_members, timestamp_members, input_members]
  rfl

/-! ## Events as they are written -/

open Json.Reader (Field)

namespace Json.Reader.Field

/-- A member that is a string. -/
def string (name s : String) : Field := ⟨name, Encode.string s, some (.string s)⟩

/-- A member that is a number.  It is read as what the number is read back as. -/
def number (name : String) (x : Float) : Field :=
  ⟨name, Encode.number x, (Encode.reread x).map .number⟩

/-- A member that is an array of strings. -/
def strings (name : String) (items : List String) : Field :=
  ⟨name, Encode.array (items.map Encode.string), some (.array (items.map .string))⟩

@[simp] theorem member?_string (name s : String) :
    (string name s).member? = some (name, .string s) := rfl

@[simp] theorem member?_strings (name : String) (items : List String) :
    (strings name items).member? = some (name, .array (items.map .string)) := rfl

@[simp] theorem member?_number (name : String) (x : Float) :
    (number name x).member? = (Encode.reread x).map fun y => (name, .number y) := by
  cases hread : Encode.reread x with
  | none => simp [number, member?, hread]
  | some y => simp [number, member?, hread]

theorem length_written (f : Field) :
    (Utf8.encode f.written).length =
      (Utf8.encode (Encode.string f.name)).length + (Utf8.encode f.text).length + 1 := by
  show (Utf8.encode (Encode.string f.name ++ ':' :: f.text)).length = _
  rw [Utf8.encode_append, List.length_append]
  show _ + ((Utf8.encode f.text).length + 1) = _
  omega

variable {bound : Nat} {name : String}

theorem string_isRead {s : String} (h : (Utf8.encode (string name s).written).length ≤ bound)
    (deeper : Option ValueReader) : (string name s).IsRead bound (valueWith bound deeper) := by
  rw [length_written] at h
  exact ⟨by omega, value_string s (show (Utf8.encode (Encode.string s)).length ≤ bound from
    Nat.le_trans (Nat.le_add_left _ _) (Nat.le_of_succ_le h)) deeper⟩

theorem number_isRead {x : Float} (h : (Utf8.encode (number name x).written).length ≤ bound)
    (deeper : Option ValueReader) : (number name x).IsRead bound (valueWith bound deeper) := by
  rw [length_written] at h
  exact ⟨by omega, value_number x bound deeper⟩

theorem strings_isRead {items : List String}
    (h : (Utf8.encode (strings name items).written).length ≤ bound) (deeper : Option ValueReader) :
    (strings name items).IsRead bound (valueWith bound (some (valueWith bound deeper))) := by
  rw [length_written] at h
  have htext : (Utf8.encode (Encode.array (items.map Encode.string))).length ≤ bound :=
    Nat.le_trans (Nat.le_add_left _ _) (Nat.le_of_succ_le h)
  refine ⟨by omega, value_strings (fun item hitem => ?_) htext⟩
  refine value_string item ?_ deeper
  have hlength := Encode.length_le_separated (List.mem_map_of_mem (f := Encode.string) hitem)
  rw [encode_array] at htext
  simp only [List.length_cons, List.length_append] at htext
  omega

end Json.Reader.Field

/-- The written members of an input. -/
def Input.fields : Input → List Field
  | .keyboard key action modifiers =>
    [ .string "key" key, .string "action" (wireName action),
      .strings "modifiers" (modifiers.toList.map wireName) ]
  | .trackpad action dx dy =>
    [.string "action" (wireName action), .number "dx" dx, .number "dy" dy]
  | .system command => [.string "command" (wireName command)]

/-- The written members of an event. -/
def Event.fields (e : Event) : List Field :=
  .string "event_type" (wireName e.kind) :: .number "timestamp" e.timestamp :: e.input.fields

/-- The line of an event without its line feed. -/
def Event.body (e : Event) : List Char := Encode.object (e.fields.map Field.written)

theorem Event.line_eq (e : Event) : e.line = e.body ++ ['\n'] := by
  obtain ⟨timestamp, input⟩ := e
  cases input with
  | keyboard key action modifiers =>
      simp only [Event.line, Event.body, Event.fields, Input.fields, Encode.members, List.map_cons,
        List.map_nil, Field.written, Field.string, Field.number, Field.strings, List.map_map]
      rfl
  | trackpad action dx dy => rfl
  | system command => rfl

/-- The bytes of a line are those of its text and a line feed. -/
theorem Event.encode_line (e : Event) :
    Utf8.encode e.line = Utf8.encode e.body ++ [Ascii.newline] := by
  rw [Event.line_eq, Utf8.encode_append]
  rfl

/-- A member of an event is a string, a number or an array of strings. -/
theorem Event.mem_fields {e : Event} {f : Field} (h : f ∈ e.fields) :
    (∃ name s, f = .string name s) ∨ (∃ name x, f = .number name x) ∨
      ∃ name items, f = .strings name items := by
  obtain ⟨timestamp, input⟩ := e
  simp only [Event.fields, List.mem_cons] at h
  rcases h with rfl | rfl | h
  · exact .inl ⟨_, _, rfl⟩
  · exact .inr (.inl ⟨_, _, rfl⟩)
  · cases input with
    | keyboard key action modifiers =>
        simp only [Input.fields, List.mem_cons, List.not_mem_nil, or_false] at h
        rcases h with rfl | rfl | rfl
        · exact .inl ⟨_, _, rfl⟩
        · exact .inl ⟨_, _, rfl⟩
        · exact .inr (.inr ⟨_, _, rfl⟩)
    | trackpad action dx dy =>
        simp only [Input.fields, List.mem_cons, List.not_mem_nil, or_false] at h
        rcases h with rfl | rfl | rfl
        · exact .inl ⟨_, _, rfl⟩
        · exact .inr (.inl ⟨_, _, rfl⟩)
        · exact .inr (.inl ⟨_, _, rfl⟩)
    | system command =>
        simp only [Input.fields, List.mem_cons, List.not_mem_nil, or_false] at h
        exact .inl ⟨_, _, h⟩

/-- The members of an event can all be read by a reader with room for its text. -/
theorem Event.fields_isRead (e : Event) {bound : Nat}
    (h : (Utf8.encode e.body).length ≤ bound) :
    ∀ f ∈ e.fields, f.IsRead bound (Json.Reader.value bound 126) := by
  intro f hf
  have hlength : (Utf8.encode f.written).length ≤ bound := by
    have hpiece := Encode.length_le_separated (List.mem_map_of_mem (f := Field.written) hf)
    rw [Event.body, Json.Reader.encode_object] at h
    simp only [List.length_cons, List.length_append] at h
    omega
  rcases Event.mem_fields hf with ⟨name, s, rfl⟩ | ⟨name, x, rfl⟩ | ⟨name, items, rfl⟩
  · exact Field.string_isRead hlength _
  · exact Field.number_isRead hlength _
  · exact Field.strings_isRead hlength _

/-! ## Numbers read back -/

/-- An input with its numbers read back from the printed ones, if they all are read. -/
def Input.reread : Input → Option Input
  | .trackpad action dx dy => do
    let dx ← Encode.reread dx
    let dy ← Encode.reread dy
    return .trackpad action dx dy
  | i => some i

/-- An event with its numbers read back from the printed ones, if they all are read. -/
def Event.reread (e : Event) : Option Event := do
  let timestamp ← Encode.reread e.timestamp
  let input ← e.input.reread
  return ⟨timestamp, input⟩

/-- The numbers of an input. -/
def Input.numbers : Input → List Float
  | .trackpad _ dx dy => [dx, dy]
  | .keyboard .. | .system .. => []

/-- The numbers of an event. -/
def Event.numbers (e : Event) : List Float := e.timestamp :: e.input.numbers

theorem Input.isSome_reread {i : Input} :
    i.reread.isSome = true ↔ ∀ x ∈ i.numbers, (Encode.reread x).isSome = true := by
  cases i with
  | keyboard key action modifiers => simp [Input.reread, Input.numbers]
  | trackpad action dx dy =>
      cases hdx : Encode.reread dx with
      | none => simp [Input.reread, Input.numbers, hdx]
      | some dx' => cases hdy : Encode.reread dy <;> simp [Input.reread, Input.numbers, hdx, hdy]
  | system command => simp [Input.reread, Input.numbers]

/-- An event is read back if each of its numbers is. -/
theorem Event.isSome_reread {e : Event} :
    e.reread.isSome = true ↔ ∀ x ∈ e.numbers, (Encode.reread x).isSome = true := by
  rw [Event.numbers, List.forall_mem_cons, ← Input.isSome_reread]
  cases htime : Encode.reread e.timestamp with
  | none => simp [Event.reread, htime]
  | some time => cases hinput : e.input.reread <;> simp [Event.reread, htime, hinput]

theorem Event.input_of_reread {e e' : Event} (h : e.reread = some e') :
    e.input.reread = some e'.input := by
  simp only [Event.reread, Option.bind_eq_bind, Option.bind_eq_some_iff] at h
  obtain ⟨time, -, input, hinput, h⟩ := h
  cases h
  exact hinput

/-- Reading numbers back leaves alone what an input is about. -/
theorem Input.kind_of_reread {i i' : Input} (h : i.reread = some i') : i'.kind = i.kind := by
  cases i with
  | keyboard key action modifiers =>
      cases h
      rfl
  | trackpad action dx dy =>
      simp only [Input.reread, Option.bind_eq_bind, Option.bind_eq_some_iff] at h
      obtain ⟨dx', -, dy', -, h⟩ := h
      cases h
      rfl
  | system command =>
      cases h
      rfl

theorem Input.mapM_fields (i : Input) :
    i.fields.mapM Field.member? = i.reread.map Input.members := by
  cases i with
  | keyboard key action modifiers => simp [Input.fields, Input.reread, Input.members]
  | trackpad action dx dy =>
      cases hdx : Encode.reread dx with
      | none => simp [Input.fields, Input.reread, hdx]
      | some dx' =>
          cases hdy : Encode.reread dy with
          | none => simp [Input.fields, Input.reread, hdx, hdy]
          | some dy' => simp [Input.fields, Input.reread, Input.members, hdx, hdy]
  | system command => simp [Input.fields, Input.reread, Input.members]

/-- What the written members of an event are read as is the message of the event with its numbers
read back. -/
theorem Event.mapM_fields (e : Event) :
    e.fields.mapM Field.member? = e.reread.map Event.members := by
  rw [Event.fields, List.mapM_cons, List.mapM_cons, Input.mapM_fields]
  cases htime : Encode.reread e.timestamp with
  | none => simp [Event.reread, htime]
  | some time =>
      cases hinput : e.input.reread with
      | none => simp [Event.reread, htime, hinput]
      | some input =>
          simp [Event.reread, Event.members, Event.kind, htime, hinput,
            Input.kind_of_reread hinput]

/-! ## Decoding a written event -/

theorem Event.read_body (e : Event) {blanks : Bytes}
    (hblanks : ∀ b ∈ blanks, Json.Reader.isBlank b = true) :
    (Json.read (Utf8.encode e.body ++ blanks)).toOption =
      e.reread.map fun e' => .object e'.members := by
  have hread := Json.Reader.read_object hblanks fun bound hbound => e.fields_isRead hbound
  refine hread.trans ?_
  show (e.fields.mapM Field.member?).map Json.object = _
  rw [Event.mapM_fields, Option.map_map]
  rfl

variable {e : Event} {blanks : Bytes}

/-- A written event is decoded as the event with its numbers read back. -/
theorem Event.decodeLine_body (hblanks : ∀ b ∈ blanks, Json.Reader.isBlank b = true) {e' : Event}
    (h : e.reread = some e') (receivedAt : Float) :
    Event.decodeLine (Utf8.encode e.body ++ blanks) receivedAt = ⟨false, .ok e'⟩ := by
  have hread := e.read_body hblanks
  rw [h] at hread
  have hjson : Json.read (Utf8.encode e.body ++ blanks) = .ok (.object e'.members) :=
    Json.Number.eq_ok_of_toOption hread
  simp only [Event.decodeLine, hjson, decode_members]
  rfl

/-- If a number is not read back, the written event is no JSON text. -/
theorem Event.read_unread (hblanks : ∀ b ∈ blanks, Json.Reader.isBlank b = true)
    (h : e.reread = none) :
    ∃ error, Json.read (Utf8.encode e.body ++ blanks) = .error error := by
  have hread := e.read_body hblanks
  rw [h] at hread
  cases hjson : Json.read (Utf8.encode e.body ++ blanks) with
  | error error => exact ⟨error, rfl⟩
  | ok value =>
      rw [hjson] at hread
      cases hread

theorem Event.decodeLine_unread (hblanks : ∀ b ∈ blanks, Json.Reader.isBlank b = true)
    (h : e.reread = none) (receivedAt : Float) :
    ∃ error, Event.decodeLine (Utf8.encode e.body ++ blanks) receivedAt =
      ⟨false, .error (.malformedMessage error)⟩ := by
  obtain ⟨error, hjson⟩ := Event.read_unread hblanks h
  exact ⟨error, by simp only [Event.decodeLine, hjson]⟩

/-! ## No control characters -/

theorem Encode.mem_separated {c : Char} {ps : List (List Char)} (h : c ∈ separated ps) :
    c = ',' ∨ ∃ p ∈ ps, c ∈ p := by
  cases ps with
  | nil => cases h
  | cons p ps =>
      rw [separated_cons, List.mem_append, List.mem_flatMap] at h
      rcases h with hp | ⟨q, hq, hc⟩
      · exact .inr ⟨p, List.mem_cons_self .., hp⟩
      · rcases List.mem_cons.mp hc with hcomma | hc
        · exact .inl hcomma
        · exact .inr ⟨q, List.mem_cons_of_mem _ hq, hc⟩

theorem Decimal.le_of_isNumberChar {c : Char} (h : isNumberChar c = true) : 0x20 ≤ c.toNat := by
  simp only [isNumberChar, Bool.or_eq_true, beq_iff_eq] at h
  rcases h with (((hdigit | rfl) | rfl) | rfl) | rfl
  · simp only [Char.isDigit, Bool.and_eq_true, decide_eq_true_eq] at hdigit
    have hlow := UInt32.le_iff_toNat_le.mp hdigit.1
    exact Nat.le_trans (by decide) hlow
  · decide
  · decide
  · decide
  · decide

namespace Json.Reader.Field

/-- Whether a written value holds no control character. -/
def Plain (f : Field) : Prop := ∀ c ∈ f.text, 0x20 ≤ c.toNat

theorem string_plain (name s : String) : (string name s).Plain := fun _ hc =>
  Quoted.le_of_mem_write hc

theorem number_plain (name : String) (x : Float) : (number name x).Plain := fun c hc =>
  Decimal.le_of_isNumberChar (Decimal.isNumberChar_writeFloat .message x c hc)

theorem strings_plain (name : String) (items : List String) : (strings name items).Plain := by
  intro c hc
  simp only [strings, Encode.array, List.mem_cons, List.mem_append, List.not_mem_nil,
    or_false] at hc
  rcases hc with (rfl | hc) | rfl
  · decide
  · rcases Encode.mem_separated hc with rfl | ⟨p, hp, hc⟩
    · decide
    · obtain ⟨item, -, rfl⟩ := List.mem_map.mp hp
      exact Quoted.le_of_mem_write hc
  · decide

theorem le_of_mem_written {f : Field} (h : f.Plain) {c : Char} (hc : c ∈ f.written) :
    0x20 ≤ c.toNat := by
  simp only [written, Encode.member, List.mem_append, List.mem_cons] at hc
  rcases hc with hc | rfl | hc
  · exact Quoted.le_of_mem_write hc
  · decide
  · exact h c hc

end Json.Reader.Field

theorem Event.fields_plain (e : Event) : ∀ f ∈ e.fields, f.Plain := by
  intro f hf
  rcases Event.mem_fields hf with ⟨name, s, rfl⟩ | ⟨name, x, rfl⟩ | ⟨name, items, rfl⟩
  · exact Field.string_plain name s
  · exact Field.number_plain name x
  · exact Field.strings_plain name items

/-- A written event holds no control character, whatever its key is. -/
theorem Event.le_of_mem_body (e : Event) {c : Char} (hc : c ∈ e.body) : 0x20 ≤ c.toNat := by
  simp only [Event.body, Encode.object, List.mem_cons, List.mem_append, List.not_mem_nil,
    or_false] at hc
  rcases hc with (rfl | hc) | rfl
  · decide
  · rcases Encode.mem_separated hc with rfl | ⟨p, hp, hc⟩
    · decide
    · obtain ⟨f, hf, rfl⟩ := List.mem_map.mp hp
      exact Field.le_of_mem_written (e.fields_plain f hf) hc
  · decide

/-- A control character is no byte of a written event. -/
theorem Event.not_mem_encode_body (e : Event) {b : UInt8} (h : b.toNat < 0x20) :
    b ∉ Utf8.encode e.body := by
  intro hb
  obtain ⟨c, hc, hb⟩ := List.mem_flatMap.mp hb
  have hcode := Utf8.eq_of_mem_encodeChar hb (by omega)
  have hplain := e.le_of_mem_body hc
  omega

end RemoteInput
