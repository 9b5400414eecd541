import RemoteInput.Proofs.Messages
import RemoteInput.Proofs.Overflow

/-!
# Only finite numbers are read and written

The reader scales every number that it takes in, and a number that the scaling takes out
of the doubles is a fault.  So each number of a value that was read is finite, however
deep it stands (`Json.IsFinite`, `read_finite`), and so is each number of an event if
the time of receipt is (`decodeLine_isFinite`).

The writer looks at the numbers of an event first and writes it only if all of them
are finite (`encodeLine_eq_error`).  So none of the members that it writes is `null`,
and each number stands under its name as a number text (`Event.number_mem_fields`).
-/

namespace RemoteInput

namespace Json

/-! ## Numbers -/

namespace Number

theorem scale_isFinite {significand : Nat} {exponent : Int} {x : Float}
    (h : scale significand exponent = some x) : x.isFinite = true :=
  (Option.filter_eq_some_iff.mp h).2

theorem isFinite_zero : (0 : Float).isFinite = true := by decide

theorem finish_isFinite {parts : Parts} {t s : Bytes} {x : Float}
    (h : finish parts t = .ok (x, s)) : x.isFinite = true := by
  unfold finish at h
  split at h
  next hscale =>
      cases h
      exact scale_isFinite hscale
  next => cases h

theorem signedExponent_isFinite {parts : Parts} {negative : Bool} {t s : Bytes} {x : Float}
    (h : signedExponent parts negative t = .ok (x, s)) : x.isFinite = true := by
  unfold signedExponent at h
  split at h
  next => cases h
  next =>
      split at h
      next =>
          split at h
          next => exact finish_isFinite h
          next =>
              -- An exponent too large to be told leaves a fault or zero.
              split at h
              next => cases h
              next =>
                  cases h
                  exact isFinite_zero
      next => cases h

theorem exponentPart_isFinite {parts : Parts} {t s : Bytes} {x : Float}
    (h : exponentPart parts t = .ok (x, s)) : x.isFinite = true := by
  cases t with
  | nil => exact finish_isFinite h
  | cons b t =>
      rw [exponentPart_cons] at h
      split at h
      next =>
          unfold signed at h
          split at h
          · exact signedExponent_isFinite h
          · exact signedExponent_isFinite h
          · exact signedExponent_isFinite h
      next => exact finish_isFinite h

theorem unsigned_isFinite {t s : Bytes} {x : Float} (h : unsigned t = .ok (x, s)) :
    x.isFinite = true := by
  obtain ⟨_, -, hrest⟩ := bind_eq_ok.mp h
  obtain ⟨_, -, hexponent⟩ := bind_eq_ok.mp hrest
  exact exponentPart_isFinite hexponent

theorem read_isFinite {negative : Bool} {t s : Bytes} {x : Float}
    (h : read negative t = .ok (x, s)) : x.isFinite = true := by
  obtain ⟨⟨y, s₁⟩, hunsigned, hdone⟩ := bind_eq_ok.mp h
  have hfinite := unsigned_isFinite hunsigned
  cases hdone
  cases negative with
  | false => exact hfinite
  | true => exact Double.isFinite_neg hfinite

end Number

/-! ## Values -/

/-- Whether every number in a value is finite, however deep it stands. -/
inductive IsFinite : Json → Prop
  | null : IsFinite .null
  | boolean (value : Bool) : IsFinite (.boolean value)
  | number {x : Float} (h : x.isFinite = true) : IsFinite (.number x)
  | string (text : String) : IsFinite (.string text)
  | array {vs : List Json} (h : ∀ v ∈ vs, IsFinite v) : IsFinite (.array vs)
  | object {ms : Members} (h : ∀ m ∈ ms, IsFinite m.2) : IsFinite (.object ms)

namespace Reader

/-- Whether a reader of values takes in finite numbers only. -/
def ReadsFinite (value : ValueReader) : Prop := ∀ t v s, value t = .ok (v, s) → v.IsFinite

variable {value : ValueReader} {bound : Nat}

theorem items_finite (hvalue : ReadsFinite value) {seen vs : List Json} {t s : Bytes}
    (hseen : ∀ v ∈ seen, v.IsFinite) (h : items value bound seen t = .ok (vs, s)) :
    ∀ v ∈ vs, v.IsFinite := by
  induction bound generalizing seen t with
  | zero => cases h
  | succ n ih =>
      rcases items_eq_ok.mp h with ⟨-, rfl⟩ | ⟨_, _, _, v, s₃, -, -, -, hv, hrest⟩
      · intro v hv
        exact hseen v (List.mem_reverse.mp hv)
      · exact ih (List.forall_mem_cons.mpr ⟨hvalue _ v s₃ hv, hseen⟩) hrest

theorem array_finite (hvalue : ReadsFinite value) {vs : List Json} {t s : Bytes}
    (h : array bound value t = .ok (vs, s)) : ∀ v ∈ vs, v.IsFinite := by
  rcases array_eq_ok.mp h with ⟨-, rfl⟩ | ⟨_, _, v, s₂, -, -, hv, hrest⟩
  · exact List.forall_mem_nil _
  · exact items_finite hvalue (List.forall_mem_singleton.mpr (hvalue _ v s₂ hv)) hrest

theorem member_finite (hvalue : ReadsFinite value) {m : String × Json} {t s : Bytes}
    (h : member bound value t = .ok (m, s)) : m.2.IsFinite := by
  obtain ⟨_, s₂, -, -, hv⟩ := member_eq_ok.mp h
  exact hvalue s₂ m.2 s hv

theorem members_finite (hvalue : ReadsFinite value) {whole : Nat} {seen ms : Members}
    {t s : Bytes} (hseen : ∀ m ∈ seen, m.2.IsFinite)
    (h : members whole value bound seen t = .ok (ms, s)) : ∀ m ∈ ms, m.2.IsFinite := by
  induction bound generalizing seen t with
  | zero => cases h
  | succ n ih =>
      rcases members_eq_ok.mp h with ⟨-, rfl⟩ | ⟨_, _, m, _, -, -, hm, hrest⟩
      · intro m hm
        exact hseen m (List.mem_reverse.mp hm)
      · exact ih (List.forall_mem_cons.mpr ⟨member_finite hvalue hm, hseen⟩) hrest

theorem object_finite (hvalue : ReadsFinite value) {ms : Members} {t s : Bytes}
    (h : object bound value t = .ok (ms, s)) : ∀ m ∈ ms, m.2.IsFinite := by
  rcases object_eq_ok.mp h with ⟨-, rfl⟩ | ⟨_, m, _, -, hm, hrest⟩
  · exact List.forall_mem_nil _
  · exact members_finite hvalue (List.forall_mem_singleton.mpr (member_finite hvalue hm)) hrest

theorem finite_of_mem_words {b : UInt8} {v : Json} {ws : Bytes} (h : (b, v, ws) ∈ words) :
    v.IsFinite := by
  simp only [words, List.mem_cons, Prod.mk.injEq, List.not_mem_nil, or_false] at h
  rcases h with ⟨-, rfl, -⟩ | ⟨-, rfl, -⟩ | ⟨-, rfl, -⟩
  · exact .null
  · exact .boolean true
  · exact .boolean false

theorem valueWith_finite {deeper : Option ValueReader}
    (hdeeper : ∀ value ∈ deeper, ReadsFinite value) : ReadsFinite (valueWith bound deeper) := by
  intro t v s h
  cases valueWith_eq_ok.mp h with
  | word first hword rest => exact finite_of_mem_words hword
  | string first rest => exact .string _
  | array first hmem rest => exact .array (array_finite (hdeeper _ hmem) rest)
  | object first hmem rest => exact .object (object_finite (hdeeper _ hmem) rest)
  | negative first rest => exact .number (Number.read_isFinite rest)
  | number first hdigit rest => exact .number (Number.read_isFinite rest)

theorem value_finite (bound depth : Nat) : ReadsFinite (Reader.value bound depth) := by
  induction depth with
  | zero => exact valueWith_finite fun value hmem => by cases hmem
  | succ depth ih =>
      refine valueWith_finite fun value hmem => ?_
      cases hmem
      exact ih

end Reader

/-- Every number of a value that was read is finite. -/
theorem read_finite {text : Bytes} {v : Json} (h : read text = .ok v) : v.IsFinite := by
  have hdocument := read_eq_ok.mp h
  unfold Reader.document at hdocument
  obtain ⟨⟨v', s⟩, hv, hend⟩ := bind_eq_ok.mp hdocument
  dsimp only at hend
  split at hend
  next =>
      cases hend
      exact Reader.value_finite _ _ _ v s hv
  next => cases hend

/-! ## Members -/

/-- What is found under a name is the value of a member. -/
theorem Members.get?_mem {ms : Members} {name : String} {v : Json} (h : ms.get? name = some v) :
    (name, v) ∈ ms := by
  induction ms using List.reverseRecOn with
  | nil => cases h
  | append_singleton ms m ih =>
      rw [get?, List.foldl_append] at h
      change (if m.1 = name then some m.2 else get? ms name) = some v at h
      split at h
      next heq =>
          obtain rfl := Option.some.inj h
          rw [← heq]
          exact List.mem_append_right ms (List.mem_singleton_self m)
      next => exact List.mem_append_left [m] (ih h)

/-- A number that is found under a name in a value that was read is finite. -/
theorem IsFinite.get? {ms : Members} (h : (Json.object ms).IsFinite) {name : String} {x : Float}
    (hx : ms.get? name = some (.number x)) : x.isFinite = true := by
  cases h with
  | object h =>
      cases h _ (Members.get?_mem hx) with
      | number hfinite => exact hfinite

end Json

/-! ## Events -/

namespace Decode

open Json (IsFinite)

theorem distance_isFinite {ms : Json.Members} (h : IsFinite (.object ms)) {field : String}
    {x : Float} (hx : distance ms field = .ok x) : x.isFinite = true := by
  unfold distance at hx
  split at hx
  next =>
      cases hx
      exact Json.Number.isFinite_zero
  next hget =>
      cases hx
      exact h.get? hget
  next => cases hx

theorem input_isFinite {ms : Json.Members} (h : IsFinite (.object ms)) {kind : EventKind}
    {i : Input} (hi : input ms kind = .ok i) : ∀ x ∈ i.numbers, x.isFinite = true := by
  cases kind with
  | keyboard =>
      obtain ⟨key, -, hrest⟩ := bind_eq_ok.mp hi
      obtain ⟨action, -, hrest⟩ := bind_eq_ok.mp hrest
      obtain ⟨modifiers, -, hdone⟩ := bind_eq_ok.mp hrest
      cases hdone
      exact List.forall_mem_nil _
  | trackpad =>
      obtain ⟨action, -, hrest⟩ := bind_eq_ok.mp hi
      obtain ⟨dx, hdx, hrest⟩ := bind_eq_ok.mp hrest
      obtain ⟨dy, hdy, hdone⟩ := bind_eq_ok.mp hrest
      cases hdone
      have hdx := distance_isFinite h hdx
      have hdy := distance_isFinite h hdy
      exact List.forall_mem_cons.mpr ⟨hdx, List.forall_mem_cons.mpr ⟨hdy, List.forall_mem_nil _⟩⟩
  | system =>
      obtain ⟨command, -, hdone⟩ := bind_eq_ok.mp hi
      cases hdone
      exact List.forall_mem_nil _

end Decode

/-- The numbers of an event come from its message, and the timestamp may come from the clock. -/
theorem decode_isFinite {v : Json} (h : v.IsFinite) {receivedAt : Float}
    (hreceived : receivedAt.isFinite = true) {event : Event}
    (hevent : (Event.decode v receivedAt).result = .ok event) :
    ∀ x ∈ event.numbers, x.isFinite = true := by
  unfold Event.decode at hevent
  split at hevent
  next ms =>
      split at hevent
      next => cases hevent
      next kind _ =>
          split at hevent
          next =>
              obtain ⟨i, hi, rfl⟩ := map_eq_ok.mp hevent
              exact List.forall_mem_cons.mpr ⟨hreceived, Decode.input_isFinite h hi⟩
          next hget =>
              obtain ⟨i, hi, rfl⟩ := map_eq_ok.mp hevent
              exact List.forall_mem_cons.mpr ⟨h.get? hget, Decode.input_isFinite h hi⟩
          next => cases hevent
  next => cases hevent

/-- An accepted line that was received at a finite time holds finite numbers. -/
theorem decodeLine_isFinite {line : Bytes} {receivedAt : Float}
    (hreceived : receivedAt.isFinite = true) {event : Event}
    (h : (Event.decodeLine line receivedAt).result = .ok event) :
    ∀ x ∈ event.numbers, x.isFinite = true := by
  unfold Event.decodeLine at h
  split at h
  next => cases h
  next hread => exact decode_isFinite (Json.read_finite hread) hreceived (mapError_eq_ok.mp h)

/-! ## Lines that are written -/

theorem Event.isFinite_iff {event : Event} :
    event.isFinite = true ↔ ∀ x ∈ event.numbers, x.isFinite = true := by
  obtain ⟨timestamp, input⟩ := event
  rw [Event.isFinite, Bool.and_eq_true, Event.numbers, List.forall_mem_cons]
  cases input with
  | keyboard key action modifiers => simp [Input.isFinite, Input.numbers]
  | trackpad action dx dy => simp [Input.isFinite, Input.numbers]
  | system command => simp [Input.isFinite, Input.numbers]

theorem encodeLine_eq_ok {event : Event} {text : String} :
    event.encodeLine = .ok text ↔
      (∀ x ∈ event.numbers, x.isFinite = true) ∧ String.ofList event.line = text := by
  rw [Event.encodeLine, ← Event.isFinite_iff]
  split
  next h => simp [h]
  next h => simp [h]

/-- An event is not written if and only if one of its numbers is no number or an infinite one. -/
theorem encodeLine_eq_error {event : Event} :
    (∃ error, event.encodeLine = .error error) ↔
      ∃ x ∈ event.numbers, x.isNaN = true ∨ x.isInf = true := by
  have hnumbers : (∃ x ∈ event.numbers, x.isNaN = true ∨ x.isInf = true) ↔
      ¬ event.isFinite = true := by
    simp only [← Double.isFinite_eq_false, Event.isFinite_iff, not_forall, Bool.not_eq_true,
      exists_prop]
  rw [hnumbers, Event.encodeLine]
  split
  next h => simp [h]
  next h => exact iff_of_true ⟨.nonFinite, rfl⟩ h

/-- The numbers of an input with the names that they are written under. -/
def Input.numbered : Input → List (String × Float)
  | .trackpad _ dx dy => [("dx", dx), ("dy", dy)]
  | .keyboard .. | .system .. => []

/-- The numbers of an event with the names that they are written under. -/
def Event.numbered (event : Event) : List (String × Float) :=
  ("timestamp", event.timestamp) :: event.input.numbered

open Json.Reader (Field)

theorem Event.number_mem_fields {event : Event} {name : String} {x : Float}
    (h : (name, x) ∈ event.numbered) : Field.number name x ∈ event.fields := by
  obtain ⟨timestamp, input⟩ := event
  rw [Event.numbered, List.mem_cons] at h
  rcases h with heq | hmem
  · cases heq
    exact List.mem_cons_of_mem _ List.mem_cons_self
  · refine List.mem_cons_of_mem _ (List.mem_cons_of_mem _ ?_)
    cases input with
    | keyboard key action modifiers => cases hmem
    | trackpad action dx dy =>
        simp only [Input.numbered, List.mem_cons, List.not_mem_nil, or_false] at hmem
        rcases hmem with heq | heq
        · cases heq
          exact List.mem_cons_of_mem _ List.mem_cons_self
        · cases heq
          exact List.mem_cons_of_mem _ (List.mem_cons_of_mem _ List.mem_cons_self)
    | system command => cases hmem

/-- No written member is `null`. -/
theorem Event.text_ne_null {event : Event} {f : Field} (h : f ∈ event.fields) :
    f.text ≠ ['n', 'u', 'l', 'l'] := by
  intro hnull
  rcases Event.mem_fields h with ⟨name, s, rfl⟩ | ⟨name, x, rfl⟩ | ⟨name, items, rfl⟩
  · cases hnull
  · obtain ⟨n, hn⟩ := Json.Numeral.exists_number x
    have htext : Encode.number x = ['n', 'u', 'l', 'l'] := hnull
    obtain ⟨b, s, hb, hbegins⟩ := n.begins []
    rw [List.append_nil, hn, htext] at hb
    obtain rfl : Ascii.letterN = b := (List.cons.inj hb).1
    rcases hbegins with heq | hdigit
    · cases heq
    · cases hdigit
  · cases hnull

/-! ## The end of the range -/

/-- A number text with digits, a letter and the digits of its exponent. -/
def Json.Numeral.scientific (whole power : Bytes)
    (h : (whole ≠ [] ∧ (∀ b ∈ whole, Ascii.isDigit b = true) ∧ whole.head? ≠ some Ascii.zero) ∧
      power ≠ [] ∧ ∀ b ∈ power, Ascii.isDigit b = true) : Json.Numeral where
  negative := false
  whole := whole
  fraction := []
  exponent := some ⟨false, none, power, h.2.1, h.2.2⟩
  whole_ne_nil := h.1.1
  isDigit_whole := h.1.2.1
  tail_eq_nil := fun hzero => absurd hzero h.1.2.2
  isDigit_fraction := List.forall_mem_nil _

theorem Json.Numeral.magnitude_scientific {whole power : Bytes} (h) :
    (scientific whole power h).magnitude =
      Number.digits 0 whole * 10 ^ (Number.digits 0 power : Int) := by
  show (Number.digits 0 (whole ++ []) : ℚ) * 10 ^ (-((0 : Nat) : Int)) *
    10 ^ (Number.digits 0 power : Int) = _
  rw [List.append_nil, Nat.cast_zero, neg_zero, zpow_zero, mul_one]

/-- The number text `1797693134862317e293`. -/
def pastRange : Json.Numeral :=
  .scientific (Utf8.encode "1797693134862317".toList) (Utf8.encode "293".toList)
    ⟨⟨List.cons_ne_nil _ _, List.all_eq_true.mp rfl, by decide⟩, List.cons_ne_nil _ _,
      List.all_eq_true.mp rfl⟩

/-- The number text `179769313486231599e291`. -/
def roundedDown : Json.Numeral :=
  .scientific (Utf8.encode "179769313486231599".toList) (Utf8.encode "291".toList)
    ⟨⟨List.cons_ne_nil _ _, List.all_eq_true.mp rfl, by decide⟩, List.cons_ne_nil _ _,
      List.all_eq_true.mp rfl⟩

theorem magnitude_pastRange : pastRange.magnitude = 1797693134862317 * 10 ^ 293 := by
  have hwhole : Json.Number.digits 0 (Utf8.encode "1797693134862317".toList) =
      1797693134862317 := by decide
  have hpower : Json.Number.digits 0 (Utf8.encode "293".toList) = 293 := by decide
  rw [pastRange, Json.Numeral.magnitude_scientific, hwhole, hpower, Nat.cast_ofNat, zpow_natCast]

theorem outOfRange_le_pastRange : Json.Number.outOfRange ≤ pastRange.magnitude :=
  le_of_eq magnitude_pastRange.symm

theorem limit_lt_roundedDown : Double.limit < roundedDown.magnitude := by
  have hnat : 2 ^ 1024 < 179769313486231599 * 10 ^ 291 := by decide +kernel
  have hcast : ((2 ^ 1024 : Nat) : ℚ) < (179769313486231599 * 10 ^ 291 : Nat) :=
    Nat.cast_lt.mpr hnat
  have hwhole : Json.Number.digits 0 (Utf8.encode "179769313486231599".toList) =
      179769313486231599 := by decide
  have hpower : Json.Number.digits 0 (Utf8.encode "291".toList) = 291 := by decide
  rw [roundedDown, Json.Numeral.magnitude_scientific, hwhole, hpower, zpow_natCast]
  rw [Nat.cast_mul, Nat.cast_pow, Nat.cast_pow] at hcast
  exact hcast

/-- A command to sleep up to its timestamp. -/
def sleepAt : Bytes :=
  Utf8.encode "\x7b\"event_type\":\"SYSTEM\",\"command\":\"SLEEP\",\"timestamp\":".toList

theorem ready_sleepAt : Json.Number.Ready sleepAt := by
  have hlast : sleepAt.getLast? = some Ascii.colon := by decide +kernel
  intro b hb
  rw [hlast, Option.mem_some_iff] at hb
  rw [← hb]
  rfl

/-- A pointer that moves far. -/
def farMove : Event := ⟨0, .trackpad .move 1e308 (-0.5)⟩

/-- A message of a pointer that moves far. -/
def farMoveText : Bytes :=
  Utf8.encode
    "\x7b\"event_type\":\"TRACKPAD\",\"action\":\"MOVE\",\"dx\":1e308,\"dy\":-0.5\x7d".toList

/-! ## Lines -/

/-- Only finite numbers are read and written.  The numbers of an accepted line are finite if the
time of receipt is, and then its event can be written.  A number out of the range makes its line no
JSON text, wherever a value is due.  An event is not written if and only if one of its numbers is no
number or an infinite one.  If it is written, no member is `null` and each number stands under its
name as a number text. -/
theorem decodeLine_finite :
    (∀ line receivedAt event, receivedAt.isFinite = true →
        (Event.decodeLine line receivedAt).result = .ok event →
        (∀ x ∈ event.numbers, x.isFinite = true) ∧ ∃ text, event.encodeLine = .ok text) ∧
      (∀ front (n : Json.Numeral) back receivedAt,
        Json.BreaksOff front → Json.Number.Ready front → Json.Number.Stops back →
        n.bytes.length < 2 ^ 31 → Json.Number.outOfRange ≤ n.magnitude →
        ∃ error, Event.decodeLine (front ++ (n.bytes ++ back)) receivedAt =
          ⟨false, .error (.malformedMessage error)⟩) ∧
      ∀ event : Event,
        ((∃ error, event.encodeLine = .error error) ↔
          ∃ x ∈ event.numbers, x.isNaN = true ∨ x.isInf = true) ∧
        ∀ text, event.encodeLine = .ok text →
          text.toList = Encode.object (event.fields.map Field.written) ++ ['\n'] ∧
            (∀ f ∈ event.fields, f.text ≠ ['n', 'u', 'l', 'l']) ∧
            ∀ name x, (name, x) ∈ event.numbered → ∃ f ∈ event.fields,
              f.name = name ∧ f.text = Encode.number x ∧
                ∃ n : Json.Numeral, n.bytes = Utf8.encode f.text := by
  refine ⟨?_, ?_, fun event => ⟨encodeLine_eq_error, ?_⟩⟩
  · intro line receivedAt event hreceived hevent
    have hfinite := decodeLine_isFinite hreceived hevent
    exact ⟨hfinite, _, encodeLine_eq_ok.mpr ⟨hfinite, rfl⟩⟩
  · intro front n back receivedAt hfront hready hback hlength hrange
    obtain ⟨error, hread⟩ := Json.read_outOfRange hfront hready hlength hrange hback
    exact ⟨error, by rw [Event.decodeLine, hread]⟩
  · intro text htext
    obtain ⟨-, rfl⟩ := encodeLine_eq_ok.mp htext
    refine ⟨?_, fun f hf => Event.text_ne_null hf, ?_⟩
    · rw [String.toList_ofList, Event.line_eq]
      rfl
    · intro name x hx
      exact ⟨_, Event.number_mem_fields hx, rfl, rfl, Json.Numeral.exists_number x⟩

/-- A distance may be as large as `10 ^ 308` and is written again, but a timestamp past the range is
refused, and a distance that is no number is not written. -/
theorem decodeLine_finite_pastRange :
    ((Event.decodeLine farMoveText 0).result = .ok farMove ∧
        (∀ x ∈ farMove.numbers, x.isFinite = true) ∧
        ∃ text, farMove.encodeLine = .ok text ∧ ∃ f ∈ farMove.fields,
          f.name = "dx" ∧ f.text = Encode.number 1e308 ∧
            ∃ n : Json.Numeral, n.bytes = Utf8.encode f.text) ∧
      (∃ error, Event.decodeLine (sleepAt ++ (pastRange.bytes ++ [Ascii.closeBrace])) 0 =
        ⟨false, .error (.malformedMessage error)⟩) ∧
      ∃ error, (⟨0, .trackpad .move 1 (0 / 0)⟩ : Event).encodeLine = .error error := by
  refine ⟨?_, ?_, ?_⟩
  · have hread : (Event.decodeLine farMoveText 0).result = .ok farMove :=
      Json.Number.eq_ok_of_toOption (by decide +kernel)
    obtain ⟨hfinite, text, htext⟩ := decodeLine_finite.1 farMoveText 0 _ (by decide) hread
    have hdx : ("dx", 1e308) ∈ farMove.numbered := List.mem_cons_of_mem _ List.mem_cons_self
    have hfields := ((decodeLine_finite.2.2 _).2 text htext).2.2 "dx" 1e308 hdx
    exact ⟨hread, hfinite, text, htext, hfields⟩
  · exact decodeLine_finite.2.1 sleepAt pastRange [Ascii.closeBrace] 0 (by decide +kernel)
      ready_sleepAt (Json.Number.stops_cons rfl []) (by decide) outOfRange_le_pastRange
  · have hnan : (0 / 0 : Float).isNaN = true := by decide +kernel
    refine (decodeLine_finite.2.2 ⟨0, .trackpad .move 1 (0 / 0)⟩).1.mpr ⟨0 / 0, ?_, .inl hnan⟩
    exact List.mem_cons_of_mem _ (List.mem_cons_of_mem _ List.mem_cons_self)

/-- The number of this text is out of the range of the doubles, by less than the reader tells.  It
is rounded to the largest double and the line is accepted. -/
theorem decodeLine_roundedDown :
    Json.BreaksOff sleepAt ∧ Json.Number.Ready sleepAt ∧ Double.limit < roundedDown.magnitude ∧
      (Event.decodeLine (sleepAt ++ (roundedDown.bytes ++ [Ascii.closeBrace])) 0).result =
        .ok ⟨Float.ofBits 0x7FEFFFFFFFFFFFFF, .system .sleep⟩ := by
  refine ⟨by decide +kernel, ready_sleepAt, limit_lt_roundedDown, ?_⟩
  exact Json.Number.eq_ok_of_toOption (by decide +kernel)

end RemoteInput
