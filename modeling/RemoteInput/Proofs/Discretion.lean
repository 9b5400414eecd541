import Mathlib
import RemoteInput.Injection.Backends
import RemoteInput.Proofs.Blanks
import RemoteInput.Proofs.Checks

/-!
# Typed text and refused text are not reported

A key is what somebody typed, and a word that is refused is whatever a sender
made up.  Errors carry both, for the caller, but their wordings leave them out.
This is said of two runs.  `Json.Disguised` relates a message to one in which such
a text is replaced by another, and `Framing.Line.Disguised` the lines of the two.
Wherever a word is refused there is a text to replace (`decode_unknownMember`).

The checks of the decoder have the same outcome on both, up to texts that no
wording repeats (`decode_disguised`): the same check fails, since the ones before
it read other members, or none fails and the inputs differ in a key.  A backend is
discreet if its answers do not tell such keys apart (`Injection.Discreet`).  Then
the accounts of the two lines read the same (`AccountOf.disguised`), and so do the
reports of two connections (`run_disguised_congr`).

The recording and the failing backend are discreet about any keys.  The logging
backend reports the code of a key and nothing else of it, so it is discreet about
keys that have one code, or none (`Injection.SameCode`).
-/

namespace RemoteInput

/-! ## Messages that differ in a text -/

/-- Whether two objects have the same members but for one name. -/
def Json.Members.SameBut (field : String) (ms ms' : Json.Members) : Prop :=
  ∀ name, name ≠ field → ms'.get? name = ms.get? name

theorem Json.Members.SameBut.replace (before after : Json.Members) (field : String)
    (v v' : Json) :
    SameBut field (before ++ (field, v) :: after) (before ++ (field, v') :: after) := by
  intro name hname
  simp [Json.Members.get?, hname.symm]

/-- The vocabulary that messages of a kind have for a member. -/
inductive Decode.Asks : EventKind → String → (α : Type) → Vocabulary α → Prop where
  | keyAction : Asks .keyboard "action" KeyAction inferInstance
  | trackpadAction : Asks .trackpad "action" TrackpadAction inferInstance
  | command : Asks .system "command" SystemCommand inferInstance

/-- Whether a message is another one in which a text was replaced: the key of a keyboard event by
one that it may stand for, or the text that a word is refused for by another one that is no word of
the same vocabulary. -/
inductive Json.Disguised (hidden : String → String → Prop) : Json → Json → Prop where
  | key {ms ms' : Members} {time stamp : Float} {text text' : String} {action : KeyAction}
    {set : Modifiers}
    (hdecode : (Event.decode (.object ms) time).result = .ok ⟨stamp, .keyboard text action set⟩)
    (hsame : Members.SameBut "key" ms ms') (htext : ms'.get? "key" = some (.string text'))
    (hhidden : hidden text text') : Disguised hidden (.object ms) (.object ms')
  | eventType {ms ms' : Members} {time : Float} {text text' : String}
    (hdecode : (Event.decode (.object ms) time).result = .error (.unknownEventType text))
    (hsame : Members.SameBut "event_type" ms ms')
    (htext : ms'.get? "event_type" = some (.string text'))
    (hunknown : Vocabulary.ofWireName? EventKind text' = none) :
    Disguised hidden (.object ms) (.object ms')
  | word {ms ms' : Members} {time : Float} {kind : EventKind} {field text text' : String}
    {α : Type} {vocabulary : Vocabulary α}
    (hdecode : (Event.decode (.object ms) time).result = .error (.unknownMember field text))
    (hkind : Decode.kind ms = .ok kind) (hasks : Decode.Asks kind field α vocabulary)
    (hsame : Members.SameBut field ms ms') (htext : ms'.get? field = some (.string text'))
    (hunknown : Vocabulary.ofWireName? α text' = none) :
    Disguised hidden (.object ms) (.object ms')
  | modifier {ms ms' : Members} {time : Float} {text text' : String} {before after : List Json}
    (hdecode : (Event.decode (.object ms) time).result =
      .error (.unknownMember "modifiers" text))
    (hitems : ms.get? "modifiers" = some (.array (before ++ .string text :: after)))
    (hsame : Members.SameBut "modifiers" ms ms')
    (hitems' : ms'.get? "modifiers" = some (.array (before ++ .string text' :: after)))
    (hunknown : Vocabulary.ofWireName? Modifier text' = none) :
    Disguised hidden (.object ms) (.object ms')

/-- A text that a word is refused for is that of a member with a vocabulary or of an item of the
modifiers, and no word there.  So it can be replaced. -/
theorem decode_unknownMember {v : Json} {time : Float} {field text : String}
    (h : (Event.decode v time).result = .error (.unknownMember field text)) :
    ∃ (ms : Json.Members) (kind : EventKind), v = .object ms ∧ Decode.kind ms = .ok kind ∧
      ((∃ α, ∃ vocabulary : Vocabulary α, Decode.Asks kind field α vocabulary ∧
          ms.get? field = some (.string text) ∧ Vocabulary.ofWireName? α text = none) ∨
        (field = "modifiers" ∧ Vocabulary.ofWireName? Modifier text = none ∧
          ∃ before after,
            ms.get? "modifiers" = some (.array (before ++ .string text :: after)))) := by
  cases v with
  | null | boolean | number | string | array => cases h
  | object ms =>
      obtain hkind | htime | ⟨kind, hkind, hinput⟩ := decode_object_error h
      · obtain hstring | ⟨name, -, hname⟩ := bind_eq_error.mp hkind
        · exact absurd hstring Decode.string_ne_unknownMember
        · split at hname <;> cases hname
      · cases htime
      · refine ⟨ms, kind, rfl, hkind, ?_⟩
        cases kind with
        | keyboard =>
            obtain hkey | ⟨_, -, haction | ⟨_, -, hmodifiers⟩⟩ :=
              Decode.keyboard_eq_error.mp hinput
            · exact absurd hkey Decode.string_ne_unknownMember
            · obtain ⟨rfl, htext, hnone⟩ := Decode.word_eq_unknownMember haction
              exact .inl ⟨_, _, .keyAction, htext, hnone⟩
            · exact .inr (Decode.modifiers_eq_unknownMember hmodifiers)
        | trackpad =>
            obtain haction | ⟨_, -, hdx | ⟨_, -, hdy⟩⟩ := Decode.trackpad_eq_error.mp hinput
            · obtain ⟨rfl, htext, hnone⟩ := Decode.word_eq_unknownMember haction
              exact .inl ⟨_, _, .trackpadAction, htext, hnone⟩
            · exact absurd hdx Decode.distance_ne_unknownMember
            · exact absurd hdy Decode.distance_ne_unknownMember
        | system =>
            obtain ⟨rfl, htext, hnone⟩ :=
              Decode.word_eq_unknownMember (Decode.system_eq_error.mp hinput)
            exact .inl ⟨_, _, .command, htext, hnone⟩

/-- Whether an input is another one but for a key that it may stand for. -/
inductive Input.Disguised (hidden : String → String → Prop) : Input → Input → Prop where
  | refl (i : Input) : Disguised hidden i i
  | key {text text' : String} (h : hidden text text') (action : KeyAction) (set : Modifiers) :
    Disguised hidden (.keyboard text action set) (.keyboard text' action set)

theorem Input.Disguised.kind_eq {hidden : String → String → Prop} {i i' : Input}
    (h : i.Disguised hidden i') : i.kind = i'.kind := by
  cases h <;> rfl

/-- Whether two outcomes read the same: two errors with one wording, or two inputs that differ in a
key at most. -/
inductive ReadsAlike (hidden : String → String → Prop) {ε : Type} (wording : ε → String) :
    Except ε Input → Except ε Input → Prop where
  | ok {i i' : Input} (h : i.Disguised hidden i') : ReadsAlike hidden wording (.ok i) (.ok i')
  | error {e e' : ε} (h : wording e = wording e') :
    ReadsAlike hidden wording (.error e) (.error e')

variable {hidden : String → String → Prop}

theorem ReadsAlike.refl {ε : Type} (wording : ε → String) (x : Except ε Input) :
    ReadsAlike hidden wording x x := by
  cases x with
  | ok i => exact .ok (.refl i)
  | error e => exact .error rfl

theorem ReadsAlike.mapError {ε ε' : Type} {wording : ε → String} {wording' : ε' → String}
    {f : ε → ε'} (hf : ∀ e e', wording e = wording e' → wording' (f e) = wording' (f e'))
    {x x' : Except ε Input} (h : ReadsAlike hidden wording x x') :
    ReadsAlike hidden wording' (x.mapError f) (x'.mapError f) := by
  cases h with
  | ok h => exact .ok h
  | error h => exact .error (hf _ _ h)

/-- Whether two outcomes of reading a message read the same. -/
structure Decoded.ReadsAlike (hidden : String → String → Prop) {ε : Type} (wording : ε → String)
    (d d' : Decoded ε) : Prop where
  defaulted : d.defaulted = d'.defaulted
  result : RemoteInput.ReadsAlike hidden wording (d.result.map Event.input)
    (d'.result.map Event.input)

/-! ## The decoder -/

/-- Objects whose inputs read alike do so themselves, if their kinds and times are the same. -/
theorem decode_readsAlike {ms ms' : Json.Members} (hkind : Decode.kind ms' = Decode.kind ms)
    (htime : ms'.get? "timestamp" = ms.get? "timestamp")
    (hinput : ∀ kind, Decode.kind ms = .ok kind →
      ReadsAlike hidden DecodeError.message (Decode.input ms kind) (Decode.input ms' kind))
    (time time' : Float) :
    Decoded.ReadsAlike hidden DecodeError.message (Event.decode (.object ms) time)
      (Event.decode (.object ms') time') := by
  have hmap : ∀ (x : Except DecodeError Input) (stamp : Float),
      (x.map (Event.mk stamp)).map Event.input = x := by
    intro x stamp
    cases x <;> rfl
  simp only [Event.decode, hkind, htime]
  cases hms : Decode.kind ms with
  | error e => exact ⟨rfl, .refl _ _⟩
  | ok kind =>
      cases ms.get? "timestamp" with
      | none => exact ⟨rfl, by simpa only [hmap] using hinput kind hms⟩
      | some value =>
          cases value with
          | number stamp => exact ⟨rfl, by simpa only [hmap] using hinput kind hms⟩
          | null | boolean | string | array | object => exact ⟨rfl, .refl _ _⟩

/-- Only keyboard events have a key. -/
theorem Decode.eq_keyboard {ms : Json.Members} {kind : EventKind} {text : String}
    {action : KeyAction} {set : Modifiers}
    (h : input ms kind = .ok (.keyboard text action set)) : kind = .keyboard := by
  cases kind with
  | keyboard => rfl
  | trackpad =>
      obtain ⟨_, _, _, -, -, -, hinput⟩ := trackpad_eq_ok.mp h
      cases hinput
  | system =>
      obtain ⟨_, -, hinput⟩ := system_eq_ok.mp h
      cases hinput

/-- A key that is replaced shows in the input and nowhere else. -/
theorem Decode.input_key {ms ms' : Json.Members} {text text' : String} {action : KeyAction}
    {set : Modifiers} (h : input ms .keyboard = .ok (.keyboard text action set))
    (hsame : Json.Members.SameBut "key" ms ms') (htext : ms'.get? "key" = some (.string text')) :
    input ms' .keyboard = .ok (.keyboard text' action set) := by
  simp only [input, bind_eq_ok, pure, Except.pure, Except.ok.injEq, Input.keyboard.injEq]
    at h ⊢
  obtain ⟨_, -, action, haction, set, hset, -, rfl, rfl⟩ := h
  exact ⟨text', string_eq_ok.mpr htext, action, (word_congr (hsame _ (by decide))).trans haction,
    set, (modifiers_congr (hsame _ (by decide))).trans hset, rfl, rfl, rfl⟩

/-- A word that is refused may be replaced by another one. -/
theorem Decode.input_word {ms ms' : Json.Members} {kind : EventKind} {field text text' : String}
    {α : Type} {vocabulary : Vocabulary α} (hasks : Asks kind field α vocabulary)
    (h : input ms kind = .error (.unknownMember field text))
    (hsame : Json.Members.SameBut field ms ms') (htext : ms'.get? field = some (.string text'))
    (hunknown : Vocabulary.ofWireName? α text' = none) :
    input ms' kind = .error (.unknownMember field text') := by
  have hword : word α ms' field = .error (.unknownMember field text') :=
    word_unknown htext hunknown
  cases hasks with
  | keyAction =>
      -- The key is looked at first, and is not what was refused.
      obtain hkey | ⟨key, hkey, -⟩ := keyboard_eq_error.mp h
      · exact absurd hkey string_ne_unknownMember
      · exact keyboard_eq_error.mpr
          (.inr ⟨key, (string_congr (hsame _ (by decide))).trans hkey, .inl hword⟩)
  | trackpadAction => exact trackpad_eq_error.mpr (.inl hword)
  | command => exact system_eq_error.mpr hword

/-- A modifier that is refused may be replaced by another one. -/
theorem Decode.input_modifier {ms ms' : Json.Members} {kind : EventKind} {text text' : String}
    {before after : List Json} (h : input ms kind = .error (.unknownMember "modifiers" text))
    (hitems : ms.get? "modifiers" = some (.array (before ++ .string text :: after)))
    (hsame : Json.Members.SameBut "modifiers" ms ms')
    (hitems' : ms'.get? "modifiers" = some (.array (before ++ .string text' :: after)))
    (hunknown : Vocabulary.ofWireName? Modifier text' = none) :
    ∃ refused, input ms' kind = .error (.unknownMember "modifiers" refused) := by
  obtain rfl : kind = .keyboard := by
    obtain ⟨name, hname, hfield⟩ := field?_input h
    cases hfield
    cases kind with
    | keyboard => rfl
    | trackpad | system => exact absurd hname (by decide)
  obtain hkey | ⟨key, hkey, haction | ⟨action, haction, hmodifiers⟩⟩ := keyboard_eq_error.mp h
  · exact absurd hkey string_ne_unknownMember
  · exact absurd (word_eq_unknownMember haction).1 (by decide)
  · -- If an item before it is refused, it is refused in both.
    have hrefused : ∃ refused, modifiers ms' = .error (.unknownMember "modifiers" refused) := by
      rw [modifiers, hitems] at hmodifiers
      rw [modifiers, hitems']
      dsimp only at hmodifiers ⊢
      rw [insertModifiers_append] at hmodifiers ⊢
      cases hbefore : insertModifiers ∅ before with
      | error e =>
          rw [hbefore] at hmodifiers
          exact ⟨text, hmodifiers⟩
      | ok set => exact ⟨text', by simp [insertModifiers, hunknown, bind, Except.bind]⟩
    obtain ⟨refused, hrefused⟩ := hrefused
    exact ⟨refused, keyboard_eq_error.mpr (.inr
      ⟨key, (string_congr (hsame _ (by decide))).trans hkey, .inr
        ⟨action, (word_congr (hsame _ (by decide))).trans haction, hrefused⟩⟩)⟩

/-- A message reads the same to the decoder when a text that stays hidden is replaced. -/
theorem decode_disguised {v v' : Json} (h : v.Disguised hidden v') (time time' : Float) :
    Decoded.ReadsAlike hidden DecodeError.message (Event.decode v time)
      (Event.decode v' time') := by
  cases h with
  | @key ms ms' _ stamp text text' action set hdecode hsame htext hhidden =>
      obtain ⟨kind, hkind, -, hinput⟩ := decode_object_eq_ok.mp hdecode
      obtain rfl := Decode.eq_keyboard hinput
      refine decode_readsAlike (Decode.kind_congr (hsame _ (by decide))) (hsame _ (by decide))
        (fun kind hms => ?_) time time'
      obtain rfl : .keyboard = kind :=
        Except.ok.inj ((Decode.kind_eq_ok.mpr hkind).symm.trans hms)
      rw [hinput, Decode.input_key hinput hsame htext]
      exact .ok (.key hhidden action set)
  | @eventType ms ms' _ text text' hdecode hsame htext hunknown =>
      have hkind : Decode.kind ms = .error (.unknownEventType text) := by
        obtain hkind | htime | ⟨kind, -, hinput⟩ := decode_object_error hdecode
        · exact hkind
        · cases htime
        · obtain ⟨name, hname, hfield⟩ := Decode.field?_input hinput
          cases hfield
          exact absurd hname (by cases kind <;> decide)
      have hkind' : Decode.kind ms' = .error (.unknownEventType text') := by
        simp only [Decode.kind, Decode.string_eq_ok.mpr htext, hunknown, bind, Except.bind]
      simp only [Event.decode, hkind, hkind']
      exact ⟨rfl, .error rfl⟩
  | @word ms ms' _ kind field text text' α vocabulary hdecode hkind hasks hsame htext hunknown =>
      have hevent : "event_type" ≠ field := by cases hasks <;> decide
      have htime : "timestamp" ≠ field := by cases hasks <;> decide
      obtain herror | herror | ⟨kind', hkind', hinput⟩ := decode_object_error hdecode
      · rw [hkind] at herror
        cases herror
      · cases herror
      · obtain rfl : kind = kind' := Except.ok.inj (hkind.symm.trans hkind')
        refine decode_readsAlike (Decode.kind_congr (hsame _ hevent)) (hsame _ htime)
          (fun kind' hms => ?_) time time'
        obtain rfl : kind = kind' := Except.ok.inj (hkind.symm.trans hms)
        rw [hinput, Decode.input_word hasks hinput hsame htext hunknown]
        exact .error rfl
  | @modifier ms ms' _ text text' before after hdecode hitems hsame hitems' hunknown =>
      refine decode_readsAlike (Decode.kind_congr (hsame _ (by decide))) (hsame _ (by decide))
        (fun kind hms => ?_) time time'
      obtain herror | herror | ⟨kind', hkind', hinput⟩ := decode_object_error hdecode
      · rw [hms] at herror
        cases herror
      · cases herror
      · obtain rfl : kind = kind' := Except.ok.inj (hms.symm.trans hkind')
        obtain ⟨refused, hrefused⟩ :=
          Decode.input_modifier hinput hitems hsame hitems' hunknown
        rw [hinput, hrefused]
        exact .error rfl

/-! ## Lines -/

/-- Whether a line is another one but for a text of its message. -/
inductive Framing.Line.Disguised (hidden : String → String → Prop) : Line → Line → Prop where
  | refl (line : Line) : Disguised hidden line line
  | message {bytes bytes' : Bytes} {v v' : Json} (hread : Json.read bytes = .ok v)
    (hread' : Json.read bytes' = .ok v') (h : v.Disguised hidden v') :
    Disguised hidden (.text bytes) (.text bytes')

/-- Two lines within the limit that are blank or not and read the same. -/
structure Framing.TextsAlike (hidden : String → String → Prop) (bytes bytes' : Bytes) : Prop where
  blank : bytes.all Ascii.isBlank = bytes'.all Ascii.isBlank
  decoded (time time' : Float) : Decoded.ReadsAlike hidden MessageError.message
    (Event.decodeLine bytes time) (Event.decodeLine bytes' time')

theorem Framing.Line.Disguised.tooLong {line : Line} (h : Disguised hidden .tooLong line) :
    line = .tooLong := by
  cases h
  rfl

theorem Framing.Line.Disguised.text {bytes : Bytes} {line : Line}
    (h : Disguised hidden (.text bytes) line) :
    ∃ bytes', line = .text bytes' ∧ TextsAlike hidden bytes bytes' := by
  cases h with
  | refl =>
      refine ⟨bytes, rfl, rfl, fun time time' => ?_⟩
      obtain ⟨hdefaulted, hinput⟩ := Connection.decodeLine_sameButTime bytes time time'
      exact ⟨hdefaulted, hinput ▸ .refl _ _⟩
  | @message _ bytes' v v' hread hread' hvalues =>
      refine ⟨bytes', rfl, ?_, fun time time' => ?_⟩
      · rw [Json.all_isBlank_of_read hread, Json.all_isBlank_of_read hread']
      · obtain ⟨hdefaulted, hresult⟩ := decode_disguised hvalues time time'
        simp only [Event.decodeLine, hread, hread']
        refine ⟨hdefaulted, ?_⟩
        simp only [map_mapError]
        refine hresult.mapError fun e e' h => ?_
        exact congrArg (fun m => s!"malformed event: {m}") h

/-! ## Backends -/

namespace Injection

/-- A backend whose answers and reports do not tell keys apart that may stand for each other. -/
class Discreet {σ : Type} (backend : Backend σ) (hidden : String → String → Prop) : Prop where
  log_congr (s s' : σ) {i i' : Input} (h : i.Disguised hidden i') :
    (backend.inject s i).log = (backend.inject s' i').log
  result_congr (s s' : σ) {i i' : Input} (h : i.Disguised hidden i') :
    (backend.inject s i).result.mapError InjectionError.message =
      (backend.inject s' i').result.mapError InjectionError.message

/-- Whether two keys have one code, or none. -/
def SameCode (key key' : String) : Prop := Keyboard.code? key = Keyboard.code? key'

instance (hidden : String → String → Prop) : Discreet recording hidden :=
  ⟨fun _ _ _ _ _ => rfl, fun _ _ _ _ _ => rfl⟩

instance (hidden : String → String → Prop) : Discreet failing hidden :=
  ⟨fun _ _ _ _ _ => rfl, fun _ _ _ _ _ => rfl⟩

/-- Of a key the record shows the code.  A key without one is refused, in the same words. -/
theorem record_disguised {i i' : Input} (h : i.Disguised SameCode i') :
    record i = record i' ∨ ∃ e e', record i = .error e ∧ record i' = .error e' ∧
      e.message = e'.message := by
  cases h with
  | refl => exact .inl rfl
  | @key text text' hcode action set =>
      unfold SameCode at hcode
      cases hkey : Keyboard.code? text' with
      | some code => exact .inl (by simp only [record, hcode, hkey])
      | none =>
          exact .inr ⟨.unsupportedKey text, .unsupportedKey text',
            by simp only [record, hcode, hkey], by simp only [record, hkey], rfl⟩

instance : Discreet logging SameCode where
  log_congr _ _ i i' h := by
    unfold logging
    obtain hsame | ⟨e, e', hi, hi', -⟩ := record_disguised h
    · simp only [hsame]
    · simp only [hi, hi']
  result_congr _ _ i i' h := by
    unfold logging
    obtain hsame | ⟨e, e', hi, hi', hmessage⟩ := record_disguised h
    · simp only [hsame]
    · simp only [hi, hi', Except.mapError, hmessage]

end Injection

namespace Connection

variable {σ : Type}

/-! ## Accounts -/

/-- Two accounts that are reported and counted the same. -/
structure Account.ReadsAlike (a a' : Account) : Prop where
  records (number : Nat) : a.records number = a'.records number
  tally : tallyOf [a] = tallyOf [a']

theorem Account.ReadsAlike.rejected (notes : List Log.Record) {reason reason' : Rejection}
    (h : reason.message = reason'.message) :
    ReadsAlike ⟨notes, .rejected reason⟩ ⟨notes, .rejected reason'⟩ where
  records number := by simp only [Account.records, Verdict.record?_rejected, rejectedRecord, h]
  tally := rfl

theorem Account.ReadsAlike.ofResult (notes : List Log.Record) (kind : EventKind)
    {result result' : Except InjectionError Unit}
    (h : result.mapError InjectionError.message = result'.mapError InjectionError.message) :
    ReadsAlike ⟨notes, .ofResult kind result⟩ ⟨notes, .ofResult kind result'⟩ := by
  cases result with
  | ok =>
      cases result' with
      | ok => exact ⟨fun _ => rfl, rfl⟩
      | error e' => cases h
  | error e =>
      cases result' with
      | ok => cases h
      | error e' =>
          have hmessage : e.message = e'.message := by simpa [Except.mapError] using h
          exact .rejected notes (congrArg (fun m => s!"injection failed: {m}") hmessage)

/-- The accounts of two lines that differ in a text of their messages read the same, if the backend
does not tell such texts apart. -/
theorem AccountOf.disguised {backend : Injection.Backend σ} [Injection.Discreet backend hidden]
    {limit : UInt64} {line line' : Framing.Line} {a a' : Account}
    (hline : line.Disguised hidden line') (h : AccountOf backend limit line a)
    (h' : AccountOf backend limit line' a') : a.ReadsAlike a' := by
  cases h with
  | tooLong =>
      obtain rfl := hline.tooLong
      cases h'
      exact .rejected [] rfl
  | blank hblank =>
      obtain ⟨bytes', rfl, halike⟩ := hline.text
      have hblank' := halike.blank.symm.trans hblank
      cases h' with
      | blank => exact ⟨fun _ => rfl, rfl⟩
      | malformed hnot => simp [hblank'] at hnot
      | answered hnot => simp [hblank'] at hnot
  | @malformed bytes time defaulted e hnot hdecode =>
      obtain ⟨bytes', rfl, halike⟩ := hline.text
      have hnot' := halike.blank.symm.trans hnot
      cases h' with
      | blank hblank => simp [hnot'] at hblank
      | @malformed _ time' defaulted' e' _ hdecode' =>
          have hread := halike.decoded time time'
          rw [hdecode, hdecode'] at hread
          obtain ⟨hdefaulted, hresult⟩ := hread
          obtain rfl : defaulted = defaulted' := hdefaulted
          cases hresult with
          | error hmessage => exact .rejected _ hmessage
      | @answered _ time' defaulted' event _ _ _ _ _ hdecode' =>
          have hread := halike.decoded time time'
          rw [hdecode, hdecode'] at hread
          cases hread.result
  | @answered bytes time defaulted event state next result log hnot hdecode hinject =>
      obtain ⟨bytes', rfl, halike⟩ := hline.text
      have hnot' := halike.blank.symm.trans hnot
      cases h' with
      | blank hblank => simp [hnot'] at hblank
      | @malformed _ time' defaulted' e' _ hdecode' =>
          have hread := halike.decoded time time'
          rw [hdecode, hdecode'] at hread
          cases hread.result
      | @answered _ time' defaulted' event' state' next' result' log' _ hdecode' hinject' =>
          have hread := halike.decoded time time'
          rw [hdecode, hdecode'] at hread
          obtain ⟨hdefaulted, hresult⟩ := hread
          obtain rfl : defaulted = defaulted' := hdefaulted
          cases hresult with
          | ok hinputs =>
              have hdiscreet : Injection.Discreet backend hidden := inferInstance
              have hlog := hdiscreet.log_congr state state' hinputs
              have hanswer := hdiscreet.result_congr state state' hinputs
              rw [hinject, hinject'] at hlog hanswer
              obtain rfl : log = log' := hlog
              have hkind : event.kind = event'.kind := hinputs.kind_eq
              rw [hkind]
              exact .ofResult _ _ hanswer

/-- Accounts of lines that differ in such texts are reported and counted the same. -/
theorem accounts_disguised {backend : Injection.Backend σ} [Injection.Discreet backend hidden]
    {limit : UInt64} {lines lines' : List Framing.Line} {accounts accounts' : List Account}
    (hlines : List.Forall₂ (Framing.Line.Disguised hidden) lines lines')
    (h : List.Forall₂ (AccountOf backend limit) lines accounts)
    (h' : List.Forall₂ (AccountOf backend limit) lines' accounts') (first : Nat) :
    recordsFrom first accounts = recordsFrom first accounts' ∧
      tallyOf accounts = tallyOf accounts' := by
  induction hlines generalizing accounts accounts' first with
  | nil =>
      cases h
      cases h'
      exact ⟨rfl, rfl⟩
  | cons hline _ ih =>
      cases h with
      | cons ha haccounts =>
          cases h' with
          | cons ha' haccounts' =>
              obtain ⟨hrecords, htally⟩ := ha.disguised hline ha'
              obtain ⟨ihrecords, ihtally⟩ := ih haccounts haccounts' (first + 1)
              refine ⟨?_, ?_⟩
              · rw [recordsFrom_cons, recordsFrom_cons, hrecords, ihrecords]
              · rw [tallyOf_cons, htally, ihtally, ← tallyOf_cons]

/-! ## Connections -/

/-- Two connections that report the same, whatever they did to the backend. -/
structure SameReport {τ : Type} (r : σ × Summary × Trace) (r' : τ × Summary × Trace) : Prop where
  summary : r.2.1 = r'.2.1
  log : r.2.2.log = r'.2.2.log

theorem run_closed_disguised (backend : Injection.Backend σ) [Injection.Discreet backend hidden]
    (limit : UInt64) (clock clock' : Nat → Float) (start start' : σ) {chunks chunks' : List Bytes}
    (shutdown : Except IoError Unit)
    (h : List.Forall₂ (Framing.Line.Disguised hidden) (handledLines limit chunks .closed)
      (handledLines limit chunks' .closed)) :
    SameReport (run ⟨backend, limit, clock⟩ start chunks .closed shutdown)
      (run ⟨backend, limit, clock'⟩ start' chunks' .closed shutdown) := by
  obtain ⟨accounts, haccounts, hstate, hlog⟩ := handleLines_accounts ⟨backend, limit, clock⟩
    start {} (handledLines limit chunks .closed) .empty
  obtain ⟨accounts', haccounts', hstate', hlog'⟩ := handleLines_accounts ⟨backend, limit, clock'⟩
    start' {} (handledLines limit chunks' .closed) .empty
  obtain ⟨hrecords, htally⟩ := accounts_disguised h haccounts haccounts' 1
  simp only [handledLines] at hstate hlog hstate' hlog'
  rw [run_closed, run_closed]
  refine ⟨?_, ?_⟩
  · simp only [hstate, hstate', htally]
  · simp only [Trace.log_append, hlog, hlog', Nat.zero_add, hrecords]

/-- With a discreet backend, streams whose lines differ in hidden texts are reported the same. -/
theorem run_disguised_congr (backend : Injection.Backend σ) [Injection.Discreet backend hidden]
    (limit : UInt64) (clock clock' : Nat → Float) (start start' : σ) {chunks chunks' : List Bytes}
    (ending : StreamEnd) (shutdown : Except IoError Unit)
    (h : List.Forall₂ (Framing.Line.Disguised hidden) (handledLines limit chunks ending)
      (handledLines limit chunks' ending)) :
    SameReport (run ⟨backend, limit, clock⟩ start chunks ending shutdown)
      (run ⟨backend, limit, clock'⟩ start' chunks' ending shutdown) := by
  cases ending with
  | closed => exact run_closed_disguised backend limit clock clock' start start' shutdown h
  | failed e =>
      have hwhole := run_closed_disguised backend limit clock clock' start start' shutdown
        (show List.Forall₂ _ (handledLines limit [Framing.wholeLines chunks.flatten] .closed)
          (handledLines limit [Framing.wholeLines chunks'.flatten] .closed) from h)
      rw [run_failed ⟨backend, limit, clock⟩ start e shutdown List.flatten_singleton,
        run_failed ⟨backend, limit, clock'⟩ start' e shutdown List.flatten_singleton]
      exact ⟨by simp only [hwhole.summary], hwhole.log⟩

/-- A connection reports neither the keys of its keyboard events nor the words that are refused.
Two streams may differ in these texts, in any of their lines, and the summaries and the records of
their connections are the same.  With the logging backend the keys have to have the same code, or
none.  The states in which the backends are found and the clocks play no part in it. -/
theorem run_disguised (limit : UInt64) (clock clock' : Nat → Float) (chunks chunks' : List Bytes)
    (ending : StreamEnd) (shutdown : Except IoError Unit) :
    let lines := handledLines limit chunks ending
    let lines' := handledLines limit chunks' ending
    (∀ start start', List.Forall₂ (Framing.Line.Disguised fun _ _ => True) lines lines' →
      SameReport (run ⟨Injection.recording, limit, clock⟩ start chunks ending shutdown)
        (run ⟨Injection.recording, limit, clock'⟩ start' chunks' ending shutdown)) ∧
      (∀ start start', List.Forall₂ (Framing.Line.Disguised fun _ _ => True) lines lines' →
        SameReport (run ⟨Injection.failing, limit, clock⟩ start chunks ending shutdown)
          (run ⟨Injection.failing, limit, clock'⟩ start' chunks' ending shutdown)) ∧
      (List.Forall₂ (Framing.Line.Disguised Injection.SameCode) lines lines' →
        SameReport (run ⟨Injection.logging, limit, clock⟩ () chunks ending shutdown)
          (run ⟨Injection.logging, limit, clock'⟩ () chunks' ending shutdown)) := by
  refine ⟨fun start start' h => ?_, fun start start' h => ?_, fun h => ?_⟩
  · exact run_disguised_congr Injection.recording limit clock clock' start start' ending shutdown h
  · exact run_disguised_congr Injection.failing limit clock clock' start start' ending shutdown h
  · exact run_disguised_congr Injection.logging limit clock clock' () () ending shutdown h

/-- A password that is typed, and one that is sent in place of a command. -/
def confidences (text : String) : List Bytes :=
  [ "\x7b\"event_type\":\"KEYBOARD\",\"key\":\"" ++ text ++ "\",\"action\":\"DOWN\"\x7d",
    "\x7b\"event_type\":\"SYSTEM\",\"command\":\"" ++ text ++ "\"\x7d" ].map
      fun message => Utf8.encode message.toList ++ [Ascii.newline]

/-- Nobody can tell from the reports which of two passwords was typed. -/
theorem run_disguised_passwords :
    let stream := confidences "hunter2"
    let stream' := confidences "swordfish"
    List.Forall₂ (Framing.Line.Disguised Injection.SameCode) (handledLines 100 stream .closed)
        (handledLines 100 stream' .closed) ∧
      SameReport (run ⟨Injection.logging, 100, fun _ => 0⟩ () stream .closed (.ok ()))
        (run ⟨Injection.logging, 100, fun _ => 5⟩ () stream' .closed (.ok ())) := by
  have hlines : ∀ text ∈ ["hunter2", "swordfish"], handledLines 100 (confidences text) .closed =
      (confidences text).map fun line => .text line.dropLast := by decide +kernel
  have h : List.Forall₂ (Framing.Line.Disguised Injection.SameCode)
      (handledLines 100 (confidences "hunter2") .closed)
      (handledLines 100 (confidences "swordfish") .closed) := by
    rw [hlines _ (by simp), hlines _ (by simp)]
    refine .cons ?_ (.cons ?_ .nil)
    · have hread : Json.read (confidences "hunter2")[0].dropLast = .ok (.object
          [("event_type", .string "KEYBOARD"), ("key", .string "hunter2"),
            ("action", .string "DOWN")]) := by cbv
      have hread' : Json.read (confidences "swordfish")[0].dropLast = .ok (.object
          [("event_type", .string "KEYBOARD"), ("key", .string "swordfish"),
            ("action", .string "DOWN")]) := by cbv
      have hdecode : (Event.decode (.object [("event_type", .string "KEYBOARD"),
          ("key", .string "hunter2"), ("action", .string "DOWN")]) 0).result =
          .ok ⟨0, .keyboard "hunter2" .down ∅⟩ := by decide +kernel
      have hcode : Keyboard.code? "hunter2" = Keyboard.code? "swordfish" := by decide
      exact .message hread hread' (.key hdecode (.replace [_] [_] _ _ _) rfl hcode)
    · have hread : Json.read (confidences "hunter2")[1].dropLast = .ok (.object
          [("event_type", .string "SYSTEM"), ("command", .string "hunter2")]) := by cbv
      have hread' : Json.read (confidences "swordfish")[1].dropLast = .ok (.object
          [("event_type", .string "SYSTEM"), ("command", .string "swordfish")]) := by cbv
      have hdecode : (Event.decode (.object [("event_type", .string "SYSTEM"),
          ("command", .string "hunter2")]) 0).result =
          .error (.unknownMember "command" "hunter2") := by decide +kernel
      exact .message hread hread'
        (.word hdecode (by decide) .command (.replace [_] [] _ _ _) rfl (by decide))
  exact ⟨h, (run_disguised 100 _ _ _ _ .closed (.ok ())).2.2 h⟩

end Connection

end RemoteInput
