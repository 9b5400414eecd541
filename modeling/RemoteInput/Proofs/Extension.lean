import RemoteInput.Event.Decode
import RemoteInput.Proofs.Grammar
import RemoteInput.Proofs.Quoted

/-!
# A value that is over does not change with what follows

A reader that succeeds on a text makes the same of it when more bytes follow, and
leaves those too.  Strings, arrays and objects say themselves where they end, so
for them this holds whatever the bytes are.  A number has no end of its own.  It
has to be `Over`: some byte that is no part of a number has to stand after it
already.  Inside an array or an object that is always so, because what stands
there is the next token (`items_over`, `members_over`).

More bytes also raise the bound on the steps of the readers, so each lemma is
about a reader and the same reader with a larger bound.  Their depth stays the
same.

A message is an object.  So a message that is followed by blanks is the same message,
and followed by anything else it is no JSON text (`decodeLine_append`).  No message is
the start of another one (`decodeLine_prefix`), and two messages do not fit on one line
(`decodeLine_selfDelimiting`).
-/

namespace RemoteInput

namespace Json

/-! ## Strings -/

namespace Quoted

theorem hexCode_append {t s : Bytes} {n : Nat} (h : hexCode t = .ok (n, s)) (r : Bytes) :
    hexCode (t ++ r) = .ok (n, s ++ r) := by
  unfold hexCode at h
  split at h
  · split at h
    next ha hb hc hd =>
        cases h
        simp [hexCode, ha, hb, hc, hd]
    · cases h
  · cases h

theorem secondHalf_append {t s : Bytes} {n : Nat} (h : secondHalf t = .ok (n, s)) (r : Bytes) :
    secondHalf (t ++ r) = .ok (n, s ++ r) := by
  unfold secondHalf at h
  split at h
  · cases h
  · cases h
  · exact hexCode_append h r
  · cases h
  · cases h

theorem unicodeEscape_append {t s : Bytes} {c : Char} (h : unicodeEscape t = .ok (c, s))
    (r : Bytes) : unicodeEscape (t ++ r) = .ok (c, s ++ r) := by
  unfold unicodeEscape at h ⊢
  obtain ⟨⟨n, s₁⟩, hcode, hrest⟩ := bind_eq_ok.mp h
  refine bind_eq_ok.mpr ⟨(n, s₁ ++ r), hexCode_append hcode r, ?_⟩
  dsimp only at hrest ⊢
  split at hrest
  next => cases hrest
  next htrailing =>
      rw [if_neg htrailing]
      split at hrest
      next hleading =>
          rw [if_pos hleading]
          obtain ⟨⟨m, s₂⟩, hsecond, hpair⟩ := bind_eq_ok.mp hrest
          refine bind_eq_ok.mpr ⟨(m, s₂ ++ r), secondHalf_append hsecond r, ?_⟩
          dsimp only at hpair ⊢
          split at hpair
          next hm =>
              obtain ⟨rfl, rfl⟩ := Prod.mk.inj (Except.ok.inj hpair)
              rw [if_pos hm]
          next => cases hpair
      next hleading =>
          cases hrest
          rw [if_neg hleading]

theorem escape_append {t s : Bytes} {c : Char} (h : escape t = .ok (c, s)) (r : Bytes) :
    escape (t ++ r) = .ok (c, s ++ r) := by
  unfold escape at h
  split at h
  case h_10 => exact unicodeEscape_append h r
  case h_1 => cases h
  case h_11 => cases h
  all_goals
    obtain ⟨rfl, rfl⟩ := Prod.mk.inj (Except.ok.inj h)
    rfl

theorem content_append {bound bound' : Nat} {seen t bytes s : Bytes}
    (h : content bound seen t = .ok (bytes, s)) (hbound : bound ≤ bound') (r : Bytes) :
    content bound' seen (t ++ r) = .ok (bytes, s ++ r) := by
  induction bound generalizing bound' seen t with
  | zero => cases h
  | succ n ih =>
      obtain ⟨n', rfl⟩ : ∃ n', bound' = n' + 1 := ⟨bound' - 1, by omega⟩
      have hle : n ≤ n' := by omega
      cases t with
      | nil => cases h
      | cons b t =>
          rw [content_cons] at h
          rw [List.cons_append, content_cons]
          split at h
          next hquote =>
              cases h
              rw [if_pos hquote]
          next hquote =>
              rw [if_neg hquote]
              split at h
              next hbackslash =>
                  rw [if_pos hbackslash]
                  obtain ⟨⟨c, s₁⟩, hescape, hrest⟩ := bind_eq_ok.mp h
                  exact bind_eq_ok.mpr ⟨(c, s₁ ++ r), escape_append hescape r, ih hrest hle⟩
              next hbackslash =>
                  rw [if_neg hbackslash]
                  split at h
                  next => cases h
                  next hcontrol =>
                      rw [if_neg hcontrol]
                      exact ih h hle

theorem read_append {bound bound' : Nat} {t s : Bytes} {text : String}
    (h : read bound t = .ok (text, s)) (hbound : bound ≤ bound') (r : Bytes) :
    read bound' (t ++ r) = .ok (text, s ++ r) := by
  unfold read at h ⊢
  obtain ⟨⟨bytes, s₁⟩, hcontent, hrest⟩ := bind_eq_ok.mp h
  refine bind_eq_ok.mpr ⟨(bytes, s₁ ++ r), content_append hcontent hbound r, ?_⟩
  dsimp only at hrest ⊢
  split at hrest
  next htext =>
      cases hrest
      rfl
  next => cases hrest

end Quoted

namespace Reader

/-! ## Tokens -/

theorem skipBlank_append {t s : Bytes} {b : UInt8} (h : skipBlank t = b :: s) (r : Bytes) :
    skipBlank (t ++ r) = b :: (s ++ r) := by
  unfold skipBlank at h ⊢
  rw [List.dropWhile_append, h]
  rfl

theorem word_append {v v' : Json} {ws t s : Bytes} (h : word v ws t = .ok (v', s)) (r : Bytes) :
    word v ws (t ++ r) = .ok (v', s ++ r) := by
  induction ws generalizing t with
  | nil =>
      cases h
      rfl
  | cons w ws ih =>
      cases t with
      | nil => cases h
      | cons b t =>
          rw [List.cons_append]
          unfold word at h ⊢
          split at h
          next heq =>
              rw [if_pos heq]
              exact ih h
          next => cases h

/-- Whether a value is over before some bytes, even if it is a number and more bytes follow. -/
def Over (s : Bytes) : Prop := ∃ b s', s = b :: s' ∧ Number.isNumberByte b = false

theorem over_of_skipBlank {t s : Bytes} {b : UInt8} (h : skipBlank t = b :: s)
    (hb : Number.isNumberByte b = false) : Over t := by
  cases t with
  | nil => cases h
  | cons c t =>
      refine ⟨c, t, rfl, ?_⟩
      cases hc : Number.isNumberByte c with
      | false => rfl
      | true =>
          rw [skipBlank_cons (isBlank_of_isNumberByte hc)] at h
          rw [← (List.cons.inj h).1, hc] at hb
          cases hb

/-- A number that is over does not change with what follows. -/
theorem number_append {negative : Bool} {t s : Bytes} {x : Float}
    (h : Number.read negative t = .ok (x, s)) (hover : Over s) (r : Bytes) :
    Number.read negative (t ++ r) = .ok (x, s ++ r) := by
  obtain ⟨b, s', rfl, hb⟩ := hover
  obtain ⟨t', rfl⟩ := Number.read_leaves negative t x _ h
  -- Without the bytes after it, the number leaves nothing.
  have hown := Number.read_append (Number.stops_cons hb s') negative t'
  rw [h] at hown
  cases hread : Number.read negative t' with
  | error e =>
      rw [hread] at hown
      cases hown
  | ok y =>
      obtain ⟨y, left⟩ := y
      rw [hread, Number.followedBy_ok] at hown
      obtain ⟨rfl, hleft⟩ := Prod.mk.inj (Option.some.inj hown)
      have hnil : left = [] := List.append_left_eq_self.mp hleft.symm
      have hlonger := Number.read_append (Number.stops_cons hb (s' ++ r)) negative t'
      rw [hread, hnil, Number.followedBy_ok, List.nil_append] at hlonger
      rw [List.append_assoc, List.cons_append]
      exact Number.eq_ok_of_toOption hlonger

/-- Whether a reader of values makes the same of a text that goes on as another one makes of the
text alone.  A number has to be over. -/
def Extends (value value' : ValueReader) : Prop :=
  ∀ t v s, value t = .ok (v, s) → (∀ x, v = .number x → Over s) →
    ∀ r, value' (t ++ r) = .ok (v, s ++ r)

variable {value value' : ValueReader} {bound bound' : Nat}

/-! ## Arrays -/

/-- A value in an array is over where the array goes on. -/
theorem items_over {seen vs : List Json} {t s : Bytes}
    (h : items value bound seen t = .ok (vs, s)) : Over t := by
  cases bound with
  | zero => cases h
  | succ n =>
      rcases items_eq_ok.mp h with ⟨hclose, -⟩ | ⟨_, _, _, _, _, hcomma, -⟩
      · exact over_of_skipBlank hclose rfl
      · exact over_of_skipBlank hcomma rfl

theorem items_append (hvalue : Extends value value') {seen vs : List Json} {t s : Bytes}
    (h : items value bound seen t = .ok (vs, s)) (hbound : bound ≤ bound') (r : Bytes) :
    items value' bound' seen (t ++ r) = .ok (vs, s ++ r) := by
  induction bound generalizing bound' seen t with
  | zero => cases h
  | succ n ih =>
      obtain ⟨n', rfl⟩ : ∃ n', bound' = n' + 1 := ⟨bound' - 1, by omega⟩
      have hle : n ≤ n' := by omega
      refine items_eq_ok.mpr ?_
      rcases items_eq_ok.mp h with ⟨hclose, rfl⟩ | ⟨s₁, b, s₂, v, s₃, hcomma, hskip, hb, hv, hrest⟩
      · exact .inl ⟨skipBlank_append hclose r, rfl⟩
      · have hv' := hvalue _ v s₃ hv (fun _ _ => items_over hrest) r
        exact .inr ⟨s₁ ++ r, b, s₂ ++ r, v, s₃ ++ r, skipBlank_append hcomma r,
          skipBlank_append hskip r, hb, hv', ih hrest hle⟩

theorem array_append (hvalue : Extends value value') {vs : List Json} {t s : Bytes}
    (h : array bound value t = .ok (vs, s)) (hbound : bound ≤ bound') (r : Bytes) :
    array bound' value' (t ++ r) = .ok (vs, s ++ r) := by
  refine array_eq_ok.mpr ?_
  rcases array_eq_ok.mp h with ⟨hclose, rfl⟩ | ⟨b, s₁, v, s₂, hskip, hb, hv, hrest⟩
  · exact .inl ⟨skipBlank_append hclose r, rfl⟩
  · have hv' := hvalue _ v s₂ hv (fun _ _ => items_over hrest) r
    exact .inr ⟨b, s₁ ++ r, v, s₂ ++ r, skipBlank_append hskip r, hb, hv',
      items_append hvalue hrest hbound r⟩

/-! ## Objects -/

theorem member_append (hvalue : Extends value value') {m : String × Json} {t s : Bytes}
    (h : member bound value t = .ok (m, s)) (hover : Over s) (hbound : bound ≤ bound')
    (r : Bytes) : member bound' value' (t ++ r) = .ok (m, s ++ r) := by
  obtain ⟨s₁, s₂, hname, hcolon, hv⟩ := member_eq_ok.mp h
  exact member_eq_ok.mpr ⟨s₁ ++ r, s₂ ++ r, Quoted.read_append hname hbound r,
    skipBlank_append hcolon r, hvalue _ m.2 s hv (fun _ _ => hover) r⟩

/-- A value in an object is over where the object goes on. -/
theorem members_over {whole : Nat} {seen ms : Members} {t s : Bytes}
    (h : members whole value bound seen t = .ok (ms, s)) : Over t := by
  cases bound with
  | zero => cases h
  | succ n =>
      rcases members_eq_ok.mp h with ⟨hclose, -⟩ | ⟨_, _, _, _, hcomma, -⟩
      · exact over_of_skipBlank hclose rfl
      · exact over_of_skipBlank hcomma rfl

theorem members_append (hvalue : Extends value value') {whole whole' : Nat}
    (hwhole : whole ≤ whole') {seen ms : Members} {t s : Bytes}
    (h : members whole value bound seen t = .ok (ms, s)) (hbound : bound ≤ bound') (r : Bytes) :
    members whole' value' bound' seen (t ++ r) = .ok (ms, s ++ r) := by
  induction bound generalizing bound' seen t with
  | zero => cases h
  | succ n ih =>
      obtain ⟨n', rfl⟩ : ∃ n', bound' = n' + 1 := ⟨bound' - 1, by omega⟩
      have hle : n ≤ n' := by omega
      refine members_eq_ok.mpr ?_
      rcases members_eq_ok.mp h with ⟨hclose, rfl⟩ | ⟨s₁, s₂, m, s₃, hcomma, hquote, hm, hrest⟩
      · exact .inl ⟨skipBlank_append hclose r, rfl⟩
      · have hm' := member_append hvalue hm (members_over hrest) hwhole r
        exact .inr ⟨s₁ ++ r, s₂ ++ r, m, s₃ ++ r, skipBlank_append hcomma r,
          skipBlank_append hquote r, hm', ih hrest hle⟩

theorem object_append (hvalue : Extends value value') {ms : Members} {t s : Bytes}
    (h : object bound value t = .ok (ms, s)) (hbound : bound ≤ bound') (r : Bytes) :
    object bound' value' (t ++ r) = .ok (ms, s ++ r) := by
  refine object_eq_ok.mpr ?_
  rcases object_eq_ok.mp h with ⟨hclose, rfl⟩ | ⟨s₁, m, s₂, hquote, hm, hrest⟩
  · exact .inl ⟨skipBlank_append hclose r, rfl⟩
  · have hm' := member_append hvalue hm (members_over hrest) hbound r
    exact .inr ⟨s₁ ++ r, m, s₂ ++ r, skipBlank_append hquote r, hm',
      members_append hvalue hbound hrest hbound r⟩

/-! ## Values -/

theorem valueWith_append {deeper deeper' : Option ValueReader}
    (hdeeper : ∀ value ∈ deeper, ∃ value' ∈ deeper', Extends value value')
    (hbound : bound ≤ bound') : Extends (valueWith bound deeper) (valueWith bound' deeper') := by
  intro t v s h hover r
  refine valueWith_eq_ok.mpr ?_
  cases valueWith_eq_ok.mp h with
  | word first hword rest => exact .word (skipBlank_append first r) hword (word_append rest r)
  | string first rest =>
      exact .string (skipBlank_append first r) (Quoted.read_append rest hbound r)
  | array first hmem rest =>
      obtain ⟨value', hmem', hvalue⟩ := hdeeper _ hmem
      exact .array (skipBlank_append first r) hmem' (array_append hvalue rest hbound r)
  | object first hmem rest =>
      obtain ⟨value', hmem', hvalue⟩ := hdeeper _ hmem
      exact .object (skipBlank_append first r) hmem' (object_append hvalue rest hbound r)
  | negative first rest =>
      exact .negative (skipBlank_append first r) (number_append rest (hover _ rfl) r)
  | number first hdigit rest =>
      exact .number (skipBlank_append first r) hdigit (number_append rest (hover _ rfl) r)

/-- A value does not change with what follows, in brackets as deep as before. -/
theorem value_append (hbound : bound ≤ bound') (depth : Nat) :
    Extends (Reader.value bound depth) (Reader.value bound' depth) := by
  induction depth with
  | zero => exact valueWith_append (fun value hmem => by cases hmem) hbound
  | succ depth ih =>
      refine valueWith_append (fun value hmem => ?_) hbound
      cases hmem
      exact ⟨_, rfl, ih⟩

end Reader

/-! ## Whole texts -/

namespace Reader

/-- Blanks hold no value. -/
theorem value_blank {t : Bytes} (h : skipBlank t = []) (bound depth : Nat) :
    value bound depth t = .error ⟨.endInValue, []⟩ := by
  cases depth with
  | zero => rw [value, valueWith, h]
  | succ depth => rw [value, valueWith, h]

/-- An object that goes on is the same object, and what follows has to be blank. -/
theorem document_object_append {text : Bytes} {ms : Members}
    (h : document text = .ok (.object ms)) (rest : Bytes) :
    document (text ++ rest) =
      match skipBlank rest with
      | [] => .ok (.object ms)
      | _ :: s => .error ⟨.trailingCharacters, s⟩ := by
  obtain ⟨⟨v, s⟩, hv, hend⟩ := bind_eq_ok.mp h
  dsimp only at hend
  split at hend
  next hblank =>
      cases hend
      have hbound : text.length ≤ (text ++ rest).length := by
        rw [List.length_append]
        exact Nat.le_add_right ..
      have hlonger := value_append hbound maxDepth text _ s hv (fun x hx => by cases hx) rest
      have hskip : skipBlank (s ++ rest) = skipBlank rest := by
        unfold skipBlank at hblank ⊢
        rw [List.dropWhile_append, hblank]
        rfl
      unfold document
      rw [hlonger]
      show (match skipBlank (s ++ rest) with | [] => _ | _ :: s => _) = _
      rw [hskip]
  next => cases hend

end Reader

theorem read_eq_ok {text : Bytes} {v : Json} :
    read text = .ok v ↔ Reader.document text = .ok v := mapError_eq_ok

/-- A text that holds a value is not blank. -/
theorem skipBlank_of_read {text : Bytes} {v : Json} (h : read text = .ok v) :
    ∃ b s, Reader.skipBlank text = b :: s := by
  refine List.exists_cons_of_ne_nil fun hblank => ?_
  have hdocument := read_eq_ok.mp h
  unfold Reader.document at hdocument
  rw [Reader.value_blank hblank] at hdocument
  cases hdocument

/-- A text that is read as an object is read as the same object when blanks follow.  The first byte
after it that is not blank is one too many. -/
theorem read_object_append {text : Bytes} {ms : Members} (h : read text = .ok (.object ms))
    (rest : Bytes) :
    read (text ++ rest) =
      match Reader.skipBlank rest with
      | [] => .ok (.object ms)
      | b :: _ => .error ⟨.trailingCharacters,
          .after (text ++ (rest.takeWhile Reader.isBlank ++ [b]))⟩ := by
  unfold read
  rw [Reader.document_object_append (read_eq_ok.mp h)]
  cases hskip : Reader.skipBlank rest with
  | nil => rfl
  | cons b s =>
      have hrest : rest = rest.takeWhile Reader.isBlank ++ [b] ++ s := by
        rw [List.append_assoc, List.singleton_append, ← hskip]
        exact List.takeWhile_append_dropWhile.symm
      have htake : (text ++ rest).take ((text ++ rest).length - s.length) =
          text ++ (rest.takeWhile Reader.isBlank ++ [b]) := by
        have hsplit : text ++ rest = text ++ (rest.takeWhile Reader.isBlank ++ [b]) ++ s := by
          rw [List.append_assoc, ← hrest]
        rw [hsplit, List.length_append, Nat.add_sub_cancel, List.take_left]
      show Except.error (Fault.toError ⟨.trailingCharacters, s⟩ (text ++ rest)) = _
      rw [Fault.toError, Fault.position, htake]

end Json

/-! ## Lines -/

/-- Only objects are accepted. -/
theorem exists_object_of_decodeLine {line : Bytes} {time : Float} {event : Event}
    (h : (Event.decodeLine line time).result = .ok event) :
    ∃ ms, Json.read line = .ok (.object ms) := by
  unfold Event.decodeLine at h
  split at h
  next => cases h
  next v hread =>
      cases v with
      | object ms => exact ⟨ms, hread⟩
      | null | boolean | number | string | array => cases h

/-- A line that is an event and goes on is the same event if blanks follow, and no JSON text
otherwise. -/
theorem decodeLine_append {start : Bytes} {time : Float} {event : Event}
    (h : (Event.decodeLine start time).result = .ok event) (rest : Bytes) :
    Event.decodeLine (start ++ rest) time =
      match Json.Reader.skipBlank rest with
      | [] => Event.decodeLine start time
      | b :: _ => ⟨false, .error (.malformedMessage ⟨.trailingCharacters,
          .after (start ++ (rest.takeWhile Json.Reader.isBlank ++ [b]))⟩)⟩ := by
  obtain ⟨ms, hread⟩ := exists_object_of_decodeLine h
  have hlonger := Json.read_object_append hread rest
  unfold Event.decodeLine
  cases hskip : Json.Reader.skipBlank rest with
  | nil =>
      rw [hskip] at hlonger
      simp only [hread, hlonger]
  | cons b s =>
      rw [hskip] at hlonger
      simp only [hlonger]

/-- An event that is read from the start of a line is the event of the line, if it has one. -/
theorem decodeLine_prefix {start line : Bytes} (hleads : start <+: line) {time : Float}
    {event event' : Event} (hstart : (Event.decodeLine start time).result = .ok event)
    (hline : (Event.decodeLine line time).result = .ok event') : event = event' := by
  obtain ⟨rest, rfl⟩ := hleads
  rw [decodeLine_append hstart] at hline
  split at hline
  next => exact Except.ok.inj (hstart.symm.trans hline)
  next => cases hline

/-- A line that is an event stays that event if blanks follow, and is no JSON text if anything else
does.  So what is accepted is never the start of something else that is accepted, and two messages
on one line are none. -/
theorem decodeLine_selfDelimiting {start : Bytes} {time : Float} {event : Event}
    (h : (Event.decodeLine start time).result = .ok event) (rest : Bytes) :
    (∀ event', (Event.decodeLine (start ++ rest) time).result = .ok event' ↔
        (∀ b ∈ rest, Json.Reader.isBlank b = true) ∧ event = event') ∧
      (∀ blanks b after, rest = blanks ++ b :: after →
        (∀ b ∈ blanks, Json.Reader.isBlank b = true) → Json.Reader.isBlank b = false →
        (Event.decodeLine (start ++ rest) time).result =
          .error (.malformedMessage ⟨.trailingCharacters, .after (start ++ (blanks ++ [b]))⟩)) ∧
      ∀ time' event', (Event.decodeLine rest time').result = .ok event' →
        ∃ place, (Event.decodeLine (start ++ rest) time).result =
          .error (.malformedMessage ⟨.trailingCharacters, place⟩) := by
  have hgoes := decodeLine_append h rest
  refine ⟨fun event' => ?_, ?_, ?_⟩
  · rw [← Json.Reader.skipBlank_eq_nil]
    cases hskip : Json.Reader.skipBlank rest with
    | nil =>
        rw [hskip] at hgoes
        rw [hgoes, h]
        simp
    | cons b s =>
        rw [hskip] at hgoes
        rw [hgoes]
        simp
  · rintro blanks b after rfl hblanks hb
    have hskip : Json.Reader.skipBlank (blanks ++ b :: after) = b :: after := by
      rw [Json.Reader.skipBlank, List.dropWhile_append_of_pos hblanks]
      exact Json.Reader.skipBlank_cons hb after
    have htake : (blanks ++ b :: after).takeWhile Json.Reader.isBlank = blanks := by
      rw [List.takeWhile_append_of_pos hblanks, List.takeWhile_cons_of_neg (by simp [hb]),
        List.append_nil]
    rw [hskip, htake] at hgoes
    rw [hgoes]
  · intro time' event' hrest
    obtain ⟨ms, hread⟩ := exists_object_of_decodeLine hrest
    obtain ⟨b, s, hskip⟩ := Json.skipBlank_of_read hread
    rw [hskip] at hgoes
    rw [hgoes]
    exact ⟨_, rfl⟩

/-- A key may hold quotes and braces, and the message ends at its own brace all the same. -/
theorem decodeLine_selfDelimiting_braces :
    let event : Event := ⟨1, .keyboard "\x7d\"\x7b\\" .down (.ofList [.alt])⟩
    let message := Utf8.encode event.line
    (Event.decodeLine message 0).result = .ok event ∧
      (Event.decodeLine (message ++ [Ascii.tab, Ascii.space]) 0).result = .ok event ∧
      (Event.decodeLine (message ++ Ascii.space :: Ascii.closeBrace :: message) 0).result =
        .error (.malformedMessage
          ⟨.trailingCharacters, .after (message ++ [Ascii.space, Ascii.closeBrace])⟩) ∧
      ∃ place, (Event.decodeLine (message ++ message) 0).result =
        .error (.malformedMessage ⟨.trailingCharacters, place⟩) := by
  intro event message
  have h : (Event.decodeLine message 0).result = .ok event :=
    Json.Number.eq_ok_of_toOption (by decide +kernel)
  have hblank := (decodeLine_selfDelimiting h [Ascii.tab, Ascii.space]).1 event
  have hbrace :=
    (decodeLine_selfDelimiting h (Ascii.space :: Ascii.closeBrace :: message)).2.1
      [Ascii.space] Ascii.closeBrace message rfl (List.all_eq_true.mp rfl) rfl
  have hglued := (decodeLine_selfDelimiting h message).2.2 0 event h
  exact ⟨h, hblank.mpr ⟨List.all_eq_true.mp rfl, rfl⟩, hbrace, hglued⟩

end RemoteInput
