import RemoteInput.Proofs.Dispatch
import RemoteInput.Proofs.Extension

/-!
# What is read as JSON is UTF-8

Nothing looks at the bytes of a line before they are read as JSON, and the reader
checks for UTF-8 only what stands between quotes, after the escapes were replaced.
All the same, a reader that succeeds has taken in UTF-8 and nothing else
(`TakesText`).  Outside strings it takes in no byte from `0x80` up.  Inside a
string, an escape stands for a whole character, so the bytes before it and after
it are UTF-8 on their own if the replaced ones are (`content_text`), and the
escape itself is written with bytes below `0x80`.

So a line that is not UTF-8 is no JSON text, wherever the bad bytes are
(`decodeLine_illFormed`).
-/

namespace RemoteInput

/-! ## Readers that take in UTF-8 -/

/-- Whether some bytes are UTF-8 up to those that are left. -/
def TakesText (bytes left : Bytes) : Prop := ∃ taken, bytes = taken ++ left ∧ Utf8.IsText taken

namespace TakesText

variable {bytes left rest : Bytes}

theorem refl (bytes : Bytes) : TakesText bytes bytes := ⟨[], rfl, Utf8.isText_nil⟩

theorem trans (h : TakesText bytes left) (h' : TakesText left rest) : TakesText bytes rest := by
  obtain ⟨first, rfl, hfirst⟩ := h
  obtain ⟨second, rfl, hsecond⟩ := h'
  exact ⟨first ++ second, (List.append_assoc ..).symm, hfirst.append hsecond⟩

/-- Bytes below `0x80` may be taken in without a look at them. -/
theorem ascii {taken : Bytes} (h : ∀ b ∈ taken, b.toNat < 0x80) (left : Bytes) :
    TakesText (taken ++ left) left := ⟨taken, rfl, Utf8.isText_ascii h⟩

theorem cons {b : UInt8} (hb : b.toNat < 0x80) (h : TakesText bytes left) :
    TakesText (b :: bytes) left := by
  have hfirst : TakesText ([b] ++ bytes) bytes := ascii (by simpa using hb) bytes
  exact hfirst.trans h

/-- If nothing is left, all of it was taken in. -/
theorem isText (h : TakesText bytes []) : Utf8.IsText bytes := by
  obtain ⟨taken, rfl, htaken⟩ := h
  rwa [List.append_nil]

end TakesText

namespace Json

/-! ## Strings -/

namespace Quoted

/-- A hexadecimal digit is below `0x80`. -/
theorem lt_of_hexValue? {b : UInt8} {n : Nat} (h : Ascii.hexValue? b = some n) :
    b.toNat < 0x80 := by
  simp only [Ascii.hexValue?, Ascii.isDigit, Bool.and_eq_true, decide_eq_true_eq,
    UInt8.le_iff_toNat_le] at h
  split at h
  next hdigit => exact Nat.lt_of_le_of_lt hdigit.2 (by decide)
  next =>
      split at h
      next hlower => exact Nat.lt_of_le_of_lt hlower.2 (by decide)
      next =>
          split at h
          next hupper => exact Nat.lt_of_le_of_lt hupper.2 (by decide)
          next => cases h

theorem hexCode_text {t s : Bytes} {n : Nat} (h : hexCode t = .ok (n, s)) : TakesText t s := by
  unfold hexCode at h
  split at h
  · split at h
    next ha hb hc hd =>
        cases h
        refine .cons (lt_of_hexValue? ha) (.cons (lt_of_hexValue? hb) ?_)
        exact .cons (lt_of_hexValue? hc) (.cons (lt_of_hexValue? hd) (.refl _))
    next => cases h
  · cases h

theorem secondHalf_text {t s : Bytes} {n : Nat} (h : secondHalf t = .ok (n, s)) :
    TakesText t s := by
  unfold secondHalf at h
  split at h
  · cases h
  · cases h
  · have hdigits := hexCode_text h
    exact (hdigits.cons (by decide)).cons (by decide)
  · cases h
  · cases h

theorem unicodeEscape_text {t s : Bytes} {c : Char} (h : unicodeEscape t = .ok (c, s)) :
    TakesText t s := by
  unfold unicodeEscape at h
  obtain ⟨⟨n, s₁⟩, hcode, hrest⟩ := bind_eq_ok.mp h
  refine (hexCode_text hcode).trans ?_
  dsimp only at hrest
  split at hrest
  next => cases hrest
  next =>
      split at hrest
      next =>
          obtain ⟨⟨m, s₂⟩, hsecond, hpair⟩ := bind_eq_ok.mp hrest
          refine (secondHalf_text hsecond).trans ?_
          dsimp only at hpair
          split at hpair
          next =>
              obtain ⟨-, rfl⟩ := Prod.mk.inj (Except.ok.inj hpair)
              exact .refl _
          next => cases hpair
      next =>
          cases hrest
          exact .refl _

/-- An escape is written with bytes below `0x80`. -/
theorem escape_text {t s : Bytes} {c : Char} (h : escape t = .ok (c, s)) : TakesText t s := by
  unfold escape at h
  split at h
  case h_10 => exact .cons (by decide) (unicodeEscape_text h)
  case h_1 => cases h
  case h_11 => cases h
  all_goals
    cases h
    exact .cons (by decide) (.refl _)

/-- If the bytes that a string stands for are UTF-8, so are the ones it is written with. -/
theorem content_text {bound : Nat} {seen t bytes s : Bytes}
    (h : content bound seen t = .ok (bytes, s)) (hbytes : Utf8.IsText bytes) :
    ∃ raw, t = raw ++ Ascii.quote :: s ∧ Utf8.IsText (seen.reverse ++ raw) := by
  induction bound generalizing seen t with
  | zero => cases h
  | succ n ih =>
      cases t with
      | nil => cases h
      | cons b t =>
          rw [content_cons] at h
          split at h
          next hquote =>
              subst hquote
              cases h
              exact ⟨[], rfl, by rwa [List.append_nil]⟩
          next =>
              split at h
              next hbackslash =>
                  subst hbackslash
                  obtain ⟨⟨c, s₁⟩, hescape, hrest⟩ := bind_eq_ok.mp h
                  obtain ⟨raw, rfl, hraw⟩ := ih hrest
                  -- What the escape stands for is a whole character, so it may be taken out.
                  rw [List.reverse_append, List.reverse_reverse, List.append_assoc] at hraw
                  obtain ⟨hbefore, hafter⟩ := Utf8.isText_around hraw
                  obtain ⟨escaped, rfl, hescaped⟩ := escape_text hescape
                  refine ⟨Ascii.backslash :: escaped ++ raw, by simp, hbefore.append ?_⟩
                  have hfirst : Utf8.IsText [Ascii.backslash] :=
                    Utf8.isText_ascii (List.forall_mem_singleton.mpr (by decide))
                  exact (hfirst.append hescaped).append hafter
              next =>
                  split at h
                  next => cases h
                  next =>
                      obtain ⟨raw, rfl, hraw⟩ := ih h
                      exact ⟨b :: raw, rfl, by simpa using hraw⟩

theorem read_text {bound : Nat} {t s : Bytes} {text : String} (h : read bound t = .ok (text, s)) :
    TakesText t s := by
  unfold read at h
  obtain ⟨⟨bytes, s₁⟩, hcontent, hrest⟩ := bind_eq_ok.mp h
  dsimp only at hrest
  split at hrest
  next htext =>
      cases hrest
      obtain ⟨chars, hdecode, -⟩ := Option.map_eq_some_iff.mp htext
      obtain ⟨raw, rfl, hraw⟩ := content_text hcontent
        (Utf8.isText_of_decode (Number.eq_ok_of_toOption hdecode))
      refine ⟨raw ++ [Ascii.quote], by simp, ?_⟩
      exact hraw.append (Utf8.isText_ascii (List.forall_mem_singleton.mpr (by decide)))
  next => cases hrest

end Quoted

/-! ## Numbers -/

/-- A number takes in bytes of a number only. -/
theorem Number.read_taken {negative : Bool} {t s : Bytes} {x : Float}
    (h : read negative t = .ok (x, s)) :
    ∃ taken, t = taken ++ s ∧ ∀ b ∈ taken, isNumberByte b = true := by
  obtain ⟨taken, rfl⟩ := read_leaves negative t x s h
  refine ⟨taken, rfl, fun b hb => ?_⟩
  by_contra hother
  -- The number would have been over before the first byte that is none of a number.
  obtain ⟨front, back, rfl⟩ := List.append_of_mem hb
  have hstops : Stops (b :: (back ++ s)) := stops_cons (by simpa using hother) _
  have hown := read_append hstops negative front
  rw [← List.cons_append, ← List.append_assoc, h] at hown
  cases hread : read negative front with
  | error e =>
      rw [hread] at hown
      cases hown
  | ok r =>
      rw [hread] at hown
      have hlength := congrArg (fun r => r.2.length) (Option.some.inj hown)
      simp at hlength
      omega

theorem Number.lt_of_isNumberByte {b : UInt8} (h : isNumberByte b = true) : b.toNat < 0x80 := by
  simp only [isNumberByte, Ascii.isDigit, Bool.or_eq_true, Bool.and_eq_true, decide_eq_true_eq,
    beq_iff_eq, UInt8.le_iff_toNat_le] at h
  rcases h with ((((⟨-, hle⟩ | rfl) | rfl) | rfl) | rfl) | rfl
  · exact Nat.lt_of_le_of_lt hle (by decide)
  all_goals decide

theorem Number.read_text {negative : Bool} {t s : Bytes} {x : Float}
    (h : read negative t = .ok (x, s)) : TakesText t s := by
  obtain ⟨taken, rfl, htaken⟩ := read_taken h
  exact .ascii (fun b hb => lt_of_isNumberByte (htaken b hb)) s

namespace Reader

/-! ## Tokens -/

theorem lt_of_isBlank {b : UInt8} (h : isBlank b = true) : b.toNat < 0x80 := by
  simp only [isBlank, Bool.or_eq_true, beq_iff_eq] at h
  rcases h with ((rfl | rfl) | rfl) | rfl <;> decide

theorem skipBlank_text (t : Bytes) : TakesText t (skipBlank t) := by
  refine ⟨t.takeWhile isBlank, List.takeWhile_append_dropWhile.symm, Utf8.isText_ascii ?_⟩
  intro b hb
  exact lt_of_isBlank (List.mem_takeWhile_imp hb)

/-- Blanks and a byte below `0x80` after them may be taken in. -/
theorem token_text {t s s' : Bytes} {b : UInt8} (h : skipBlank t = b :: s) (hb : b.toNat < 0x80)
    (hrest : TakesText s s') : TakesText t s' := by
  have hskip := skipBlank_text t
  rw [h] at hskip
  exact hskip.trans (.cons hb hrest)

theorem word_text {v v' : Json} {ws t s : Bytes} (hws : ∀ w ∈ ws, w.toNat < 0x80)
    (h : word v ws t = .ok (v', s)) : TakesText t s := by
  induction ws generalizing t with
  | nil =>
      cases h
      exact .refl _
  | cons w ws ih =>
      cases t with
      | nil => cases h
      | cons b t =>
          unfold word at h
          split at h
          next heq =>
              obtain rfl := eq_of_beq heq
              exact .cons (hws b (List.mem_cons_self ..))
                (ih (fun w hw => hws w (List.mem_cons_of_mem b hw)) h)
          next => cases h

/-- Whether a reader of values takes in UTF-8 whenever it succeeds. -/
def ReadsText (value : ValueReader) : Prop := ∀ t v s, value t = .ok (v, s) → TakesText t s

variable {value : ValueReader} {bound : Nat}

/-! ## Arrays -/

theorem items_text (hvalue : ReadsText value) {seen vs : List Json} {t s : Bytes}
    (h : items value bound seen t = .ok (vs, s)) : TakesText t s := by
  induction bound generalizing seen t with
  | zero => cases h
  | succ n ih =>
      rcases items_eq_ok.mp h with ⟨hclose, -⟩ | ⟨s₁, b, s₂, v, s₃, hcomma, hskip, -, hv, hrest⟩
      · exact token_text hclose (by decide) (.refl _)
      · refine token_text hcomma (by decide) ((skipBlank_text s₁).trans ?_)
        rw [hskip]
        exact (hvalue _ v s₃ hv).trans (ih hrest)

theorem array_text (hvalue : ReadsText value) {vs : List Json} {t s : Bytes}
    (h : array bound value t = .ok (vs, s)) : TakesText t s := by
  rcases array_eq_ok.mp h with ⟨hclose, -⟩ | ⟨b, s₁, v, s₂, hskip, -, hv, hrest⟩
  · exact token_text hclose (by decide) (.refl _)
  · refine (skipBlank_text t).trans ?_
    rw [hskip]
    exact (hvalue _ v s₂ hv).trans (items_text hvalue hrest)

/-! ## Objects -/

theorem member_text (hvalue : ReadsText value) {m : String × Json} {t s : Bytes}
    (h : member bound value t = .ok (m, s)) : TakesText t s := by
  obtain ⟨s₁, s₂, hname, hcolon, hv⟩ := member_eq_ok.mp h
  exact (Quoted.read_text hname).trans (token_text hcolon (by decide) (hvalue _ m.2 s hv))

theorem members_text (hvalue : ReadsText value) {whole : Nat} {seen ms : Members} {t s : Bytes}
    (h : members whole value bound seen t = .ok (ms, s)) : TakesText t s := by
  induction bound generalizing seen t with
  | zero => cases h
  | succ n ih =>
      rcases members_eq_ok.mp h with ⟨hclose, -⟩ | ⟨s₁, s₂, m, s₃, hcomma, hquote, hm, hrest⟩
      · exact token_text hclose (by decide) (.refl _)
      · refine token_text hcomma (by decide) (token_text hquote (by decide) ?_)
        exact (member_text hvalue hm).trans (ih hrest)

theorem object_text (hvalue : ReadsText value) {ms : Members} {t s : Bytes}
    (h : object bound value t = .ok (ms, s)) : TakesText t s := by
  rcases object_eq_ok.mp h with ⟨hclose, -⟩ | ⟨s₁, m, s₂, hquote, hm, hrest⟩
  · exact token_text hclose (by decide) (.refl _)
  · refine token_text hquote (by decide) ?_
    exact (member_text hvalue hm).trans (members_text hvalue hrest)

/-! ## Values -/

/-- Words are written with bytes below `0x80`. -/
theorem lt_of_mem_words {b : UInt8} {v : Json} {ws : Bytes} (h : (b, v, ws) ∈ words) :
    b.toNat < 0x80 ∧ ∀ w ∈ ws, w.toNat < 0x80 := by
  simp only [words, List.mem_cons, Prod.mk.injEq, List.not_mem_nil, or_false] at h
  rcases h with ⟨rfl, -, rfl⟩ | ⟨rfl, -, rfl⟩ | ⟨rfl, -, rfl⟩
  · exact ⟨by decide, by simp⟩
  · exact ⟨by decide, by simp⟩
  · exact ⟨by decide, by simp⟩

theorem valueWith_text {deeper : Option ValueReader} (hdeeper : ∀ value ∈ deeper, ReadsText value) :
    ReadsText (valueWith bound deeper) := by
  intro t v s h
  cases valueWith_eq_ok.mp h with
  | word first hword rest =>
      obtain ⟨hb, hws⟩ := lt_of_mem_words hword
      exact token_text first hb (word_text hws rest)
  | string first rest => exact token_text first (by decide) (Quoted.read_text rest)
  | array first hmem rest =>
      exact token_text first (by decide) (array_text (hdeeper _ hmem) rest)
  | object first hmem rest =>
      exact token_text first (by decide) (object_text (hdeeper _ hmem) rest)
  | negative first rest => exact token_text first (by decide) (Number.read_text rest)
  | number first hdigit rest =>
      refine (skipBlank_text t).trans ?_
      rw [first]
      exact Number.read_text rest

/-- A value is UTF-8, however deep its brackets nest. -/
theorem value_text (bound depth : Nat) : ReadsText (Reader.value bound depth) := by
  induction depth with
  | zero => exact valueWith_text fun value hmem => by cases hmem
  | succ depth ih =>
      refine valueWith_text fun value hmem => ?_
      cases hmem
      exact ih

/-- A text that holds a value is UTF-8 from its first byte to its last. -/
theorem document_text {text : Bytes} {v : Json} (h : document text = .ok v) :
    Utf8.IsText text := by
  unfold document at h
  obtain ⟨⟨v', s⟩, hv, hend⟩ := bind_eq_ok.mp h
  have hblanks := skipBlank_text s
  dsimp only at hend
  split at hend
  next hskip =>
      rw [hskip] at hblanks
      exact ((value_text _ _ _ v' s hv).trans hblanks).isText
  next => cases hend

end Reader

end Json

/-! ## Lines -/

/-- A line that is not UTF-8 is no JSON text, wherever the bad bytes are.  It asks for no input, and
a line that is an event or fails a check on an event is UTF-8 as a whole. -/
theorem decodeLine_illFormed (line : Bytes) (receivedAt : Float) :
    (¬ line.toByteArray.IsValidUTF8 →
        (∃ error, Event.decodeLine line receivedAt = ⟨false, .error (.malformedMessage error)⟩) ∧
          Connection.inputOf? receivedAt (.text line) = none) ∧
      (∀ event, (Event.decodeLine line receivedAt).result = .ok event →
        line.toByteArray.IsValidUTF8) ∧
      ∀ error, (Event.decodeLine line receivedAt).result = .error (.malformedEvent error) →
        line.toByteArray.IsValidUTF8 := by
  have hbad : ¬ line.toByteArray.IsValidUTF8 →
      ∃ error, Event.decodeLine line receivedAt = ⟨false, .error (.malformedMessage error)⟩ := by
    intro hline
    cases hread : Json.read line with
    | ok v =>
        have htext := Json.Reader.document_text (Json.read_eq_ok.mp hread)
        exact absurd (Utf8.isText_iff.mp htext) hline
    | error error =>
        refine ⟨error, ?_⟩
        rw [Event.decodeLine, hread]
  refine ⟨fun hline => ?_, fun event hevent => ?_, fun error herror => ?_⟩
  · obtain ⟨error, hdecode⟩ := hbad hline
    refine ⟨⟨error, hdecode⟩, ?_⟩
    rw [Connection.inputOf?, hdecode]
    split <;> rfl
  · by_contra hline
    obtain ⟨error, hdecode⟩ := hbad hline
    rw [hdecode] at hevent
    cases hevent
  · by_contra hline
    obtain ⟨error', hdecode⟩ := hbad hline
    rw [hdecode] at herror
    cases herror

/-- A command to sleep, with a member under a name of its own after it. -/
def withMember (name : Bytes) : Bytes :=
  Utf8.encode "\x7b\"event_type\":\"SYSTEM\",\"command\":\"SLEEP\",\"".toList ++ name ++
    Utf8.encode "\":0\x7d".toList

/-- The first half of a surrogate pair is no character, not even in a name that nothing looks up.
The last character before the surrogates may stand there. -/
theorem decodeLine_illFormed_surrogate :
    (¬ (withMember [0xED, 0xA0, 0x80]).toByteArray.IsValidUTF8 ∧
      ∃ error, Event.decodeLine (withMember [0xED, 0xA0, 0x80]) 0 =
        ⟨false, .error (.malformedMessage error)⟩) ∧
      (Event.decodeLine (withMember [0xED, 0x9F, 0xBF]) 0).result = .ok ⟨0, .system .sleep⟩ ∧
        (withMember [0xED, 0x9F, 0xBF]).toByteArray.IsValidUTF8 := by
  have hbad : ¬ (withMember [0xED, 0xA0, 0x80]).toByteArray.IsValidUTF8 := by
    rw [← Utf8.isText_iff, Utf8.isText_iff_decode]
    decide +kernel
  have hgood : (Event.decodeLine (withMember [0xED, 0x9F, 0xBF]) 0).result =
      .ok ⟨0, .system .sleep⟩ := Json.Number.eq_ok_of_toOption (by decide +kernel)
  refine ⟨⟨hbad, ?_⟩, hgood, ?_⟩
  · exact ((decodeLine_illFormed (withMember [0xED, 0xA0, 0x80]) 0).1 hbad).1
  · exact (decodeLine_illFormed (withMember [0xED, 0x9F, 0xBF]) 0).2.1 _ hgood

end RemoteInput
