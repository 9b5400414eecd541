import RemoteInput.Proofs.Numerals
import RemoteInput.Proofs.WellFormed

/-!
# A number out of the range makes its line no JSON text

A text that breaks off where a value is due fails with a cause of its own,
`endInValue`.  So the places of a line at which a number may stand are the ends of such
texts, apart from texts that break off inside another number (`Number.Ready`).  When a
number text out of the range stands there, the reader gets as far as before and fails at
the number (`read_outOfRange`).  The induction is over the reader of the broken text
(`value_refuses`), and the reader of the longer one follows it step by step, since what
was read before the number is read again (`value_append`).
-/

namespace RemoteInput

namespace Json

/-- Whether a reader fails. -/
def Fails {α : Type} (result : Except Fault α) : Prop := ∃ fault, result = .error fault

theorem Fails.bind {α β : Type} {x : Except Fault α} (h : Fails x) (f : α → Except Fault β) :
    Fails (x >>= f) := by
  obtain ⟨fault, rfl⟩ := h
  exact ⟨fault, rfl⟩

theorem Fails.of_bind {α β : Type} {x : Except Fault α} {a : α} (hx : x = .ok a)
    {f : α → Except Fault β} (h : Fails (f a)) : Fails (x >>= f) := by
  rw [hx]
  exact h

/-! ## Numbers that break off -/

namespace Number

/-- Whether a number may start after some bytes: the last of them is no part of one. -/
def Ready (front : Bytes) : Prop := ∀ b ∈ front.getLast?, isNumberByte b = false

theorem Ready.suffix {t s : Bytes} (h : Ready t) (hs : s <:+ t) : Ready s := by
  obtain ⟨front, rfl⟩ := hs
  intro b hb
  refine h b ?_
  rw [List.getLast?_append, Option.mem_def.mp hb]
  rfl

theorem Ready.not_suffix {t s : Bytes} {b : UInt8} (h : Ready t)
    (hb : isNumberByte b = true) : ¬ s ++ [b] <:+ t := by
  intro hs
  have hlast := h.suffix hs b List.getLast?_concat
  rw [hb] at hlast
  cases hlast

/-- Whether bytes start like a number. -/
def Begins (text : Bytes) : Prop :=
  ∃ b s, text = b :: s ∧ (b = Ascii.minus ∨ Ascii.isDigit b = true)

/-- What is no part of a number does not start one. -/
theorem ne_of_begins {b c : UInt8} (hb : b = Ascii.minus ∨ Ascii.isDigit b = true)
    (hminus : c ≠ Ascii.minus) (hdigit : Ascii.isDigit c = false) : b ≠ c := by
  rintro rfl
  rcases hb with heq | hb
  · exact hminus heq
  · rw [hdigit] at hb
    cases hb

theorem wholePart_breaks {t left : Bytes} (h : wholePart t = .error ⟨.endInValue, left⟩) :
    t = [] := by
  cases t with
  | nil => rfl
  | cons b t =>
      unfold wholePart at h
      dsimp only at h
      split at h
      next =>
          split at h
          next => cases h
          next => split at h <;> cases h
      next => split at h <;> cases h

theorem fraction_breaks {parts : Parts} {t left : Bytes}
    (h : fraction parts t = .error ⟨.endInValue, left⟩) : t = [Ascii.point] := by
  unfold fraction at h
  split at h
  next =>
      split at h
      next => rfl
      next => split at h <;> cases h
  next => cases h

theorem finish_breaks {parts : Parts} {t left : Bytes} :
    finish parts t ≠ .error ⟨.endInValue, left⟩ := by
  intro h
  unfold finish at h
  split at h <;> cases h

theorem signedExponent_breaks {parts : Parts} {negative : Bool} {t left : Bytes}
    (h : signedExponent parts negative t = .error ⟨.endInValue, left⟩) : t = [] := by
  unfold signedExponent at h
  split at h
  next => rfl
  next =>
      split at h
      next =>
          split at h
          next => exact absurd h finish_breaks
          next => split at h <;> cases h
      next => cases h

/-- An exponent part breaks off after its letter or its sign. -/
theorem exponentPart_breaks {parts : Parts} {t left : Bytes}
    (h : exponentPart parts t = .error ⟨.endInValue, left⟩) :
    ∃ s b, t = s ++ [b] ∧ isNumberByte b = true := by
  cases t with
  | nil => exact absurd h finish_breaks
  | cons b t =>
      rw [exponentPart_cons] at h
      split at h
      next hletter =>
          unfold signed at h
          split at h
          next =>
              obtain rfl := signedExponent_breaks h
              exact ⟨[b], Ascii.plus, rfl, rfl⟩
          next =>
              obtain rfl := signedExponent_breaks h
              exact ⟨[b], Ascii.minus, rfl, rfl⟩
          next =>
              obtain rfl := signedExponent_breaks h
              refine ⟨[], b, rfl, ?_⟩
              rw [isNumberByte, Bool.or_assoc, hletter, Bool.or_true]
      next => exact absurd h finish_breaks

/-- A number that breaks off ends with a byte of a number, if there is any. -/
theorem read_breaks {negative : Bool} {t left : Bytes} (hready : Ready t)
    (h : read negative t = .error ⟨.endInValue, left⟩) : t = [] := by
  have hunsigned : unsigned t = .error ⟨.endInValue, left⟩ := by
    rcases bind_eq_error.mp h with hunsigned | ⟨_, -, hdone⟩
    · exact hunsigned
    · cases hdone
  rcases bind_eq_error.mp hunsigned with hwhole | ⟨⟨parts, s₁⟩, hwhole, hrest⟩
  · exact wholePart_breaks hwhole
  have hs₁ : s₁ <:+ t := wholePart_leaves t parts s₁ hwhole
  rcases bind_eq_error.mp hrest with hfraction | ⟨⟨parts', s₂⟩, hfraction, hexponent⟩
  · obtain rfl := fraction_breaks hfraction
    exact absurd hs₁ (hready.not_suffix (s := []) rfl)
  · have hs₂ : s₂ <:+ s₁ := fraction_leaves parts s₁ parts' s₂ hfraction
    obtain ⟨s, b, rfl, hb⟩ := exponentPart_breaks hexponent
    exact absurd (hs₂.trans hs₁) (hready.not_suffix hb)

end Number

/-! ## Strings that break off -/

namespace Quoted

theorem hexCode_cause {t : Bytes} {fault : Fault} (h : hexCode t = .error fault) :
    fault.cause ≠ .endInValue := by
  unfold hexCode at h
  split at h
  next =>
      split at h
      next => cases h
      next =>
          cases h
          exact Cause.noConfusion
  next =>
      cases h
      exact Cause.noConfusion

theorem secondHalf_cause {t : Bytes} {fault : Fault} (h : secondHalf t = .error fault) :
    fault.cause ≠ .endInValue := by
  unfold secondHalf at h
  split at h
  case h_3 => exact hexCode_cause h
  all_goals
    cases h
    exact Cause.noConfusion

theorem unicodeEscape_cause {t : Bytes} {fault : Fault} (h : unicodeEscape t = .error fault) :
    fault.cause ≠ .endInValue := by
  rcases bind_eq_error.mp h with hcode | ⟨⟨n, s⟩, -, hrest⟩
  · exact hexCode_cause hcode
  dsimp only at hrest
  split at hrest
  next =>
      cases hrest
      exact Cause.noConfusion
  next =>
      split at hrest
      next =>
          rcases bind_eq_error.mp hrest with hsecond | ⟨⟨m, s'⟩, -, hpair⟩
          · exact secondHalf_cause hsecond
          dsimp only at hpair
          split at hpair
          next => cases hpair
          next =>
              cases hpair
              exact Cause.noConfusion
      next => cases hrest

theorem escape_cause {t : Bytes} {fault : Fault} (h : escape t = .error fault) :
    fault.cause ≠ .endInValue := by
  unfold escape at h
  split at h
  case h_10 => exact unicodeEscape_cause h
  all_goals
    cases h
    try exact Cause.noConfusion

theorem content_cause {bound : Nat} {seen t : Bytes} {fault : Fault}
    (h : content bound seen t = .error fault) : fault.cause ≠ .endInValue := by
  induction bound generalizing seen t with
  | zero =>
      cases h
      exact Cause.noConfusion
  | succ n ih =>
      cases t with
      | nil =>
          cases h
          exact Cause.noConfusion
      | cons b t =>
          rw [content_cons] at h
          split at h
          next => cases h
          next =>
              split at h
              next =>
                  rcases bind_eq_error.mp h with hescape | ⟨⟨c, s⟩, -, hrest⟩
                  · exact escape_cause hescape
                  · exact ih hrest
              next =>
                  split at h
                  next =>
                      cases h
                      exact Cause.noConfusion
                  next => exact ih h

/-- A string that breaks off has a cause of its own. -/
theorem read_cause {bound : Nat} {t : Bytes} {fault : Fault} (h : read bound t = .error fault) :
    fault.cause ≠ .endInValue := by
  rcases bind_eq_error.mp h with hcontent | ⟨⟨bytes, s⟩, -, hrest⟩
  · exact content_cause hcontent
  · dsimp only at hrest
    split at hrest
    next => cases hrest
    next =>
        cases hrest
        exact Cause.noConfusion

end Quoted

namespace Reader

open Number (Ready Begins)

/-! ## Values that break off

One reader is of the text that breaks off, the other one of the longer text. -/

/-- Whether a reader of values fails at some bytes, and where another one breaks off before them. -/
structure Refuses (value value' : ValueReader) (text : Bytes) : Prop where
  here : Fails (value' text)
  later : ∀ t left, Ready t → value t = .error ⟨.endInValue, left⟩ → Fails (value' (t ++ text))

/-- What follows a token may be followed by a number if the token with it may. -/
theorem ready_token {t s : Bytes} {b : UInt8} (h : Ready t) (hskip : skipBlank t = b :: s) :
    Ready s := by
  refine h.suffix ?_
  have hsuffix : skipBlank t <:+ t := List.dropWhile_suffix isBlank
  rw [hskip] at hsuffix
  exact (List.suffix_cons b s).trans hsuffix

theorem ready_left {t s : Bytes} (h : Ready t) (htaken : TakesText t s) : Ready s := by
  obtain ⟨taken, rfl, -⟩ := htaken
  exact h.suffix (List.suffix_append taken s)

/-- What a number starts with. -/
theorem skipBlank_begins {text : Bytes} (h : Begins text) {t : Bytes} (ht : skipBlank t = []) :
    ∃ b s, text = b :: s ∧ skipBlank (t ++ text) = b :: s ∧ b ≠ Ascii.closeBracket ∧
      b ≠ Ascii.closeBrace ∧ b ≠ Ascii.quote := by
  obtain ⟨b, s, rfl, hb⟩ := h
  have hblank : isBlank b = false := by
    by_contra hblank
    rw [Bool.not_eq_false] at hblank
    simp only [isBlank, Bool.or_eq_true, beq_iff_eq] at hblank
    rcases hblank with ((heq | heq) | heq) | heq <;>
      exact Number.ne_of_begins hb (by decide) rfl heq
  refine ⟨b, s, rfl, ?_, Number.ne_of_begins hb (by decide) rfl,
    Number.ne_of_begins hb (by decide) rfl, Number.ne_of_begins hb (by decide) rfl⟩
  unfold skipBlank at ht ⊢
  rw [List.dropWhile_append, ht]
  exact skipBlank_cons hblank s

/-- No word goes on with a number. -/
theorem word_refuses {v : Json} {ws t left text : Bytes} (hbegins : Begins text)
    (hws : ∀ w ∈ ws, w ≠ Ascii.minus ∧ Ascii.isDigit w = false)
    (h : word v ws t = .error ⟨.endInValue, left⟩) : Fails (word v ws (t ++ text)) := by
  induction ws generalizing t with
  | nil => cases h
  | cons w ws ih =>
      cases t with
      | nil =>
          obtain ⟨b, s, rfl, hb⟩ := hbegins
          obtain ⟨hminus, hdigit⟩ := hws w List.mem_cons_self
          have hne : (b == w) = false :=
            beq_eq_false_iff_ne.mpr (Number.ne_of_begins hb hminus hdigit)
          refine ⟨⟨.expectedIdent, s⟩, ?_⟩
          rw [List.nil_append, word, hne]
          rfl
      | cons b t =>
          rw [List.cons_append]
          unfold word at h ⊢
          split at h
          next heq =>
              rw [if_pos heq]
              exact ih (fun w hw => hws w (List.mem_cons_of_mem _ hw)) h
          next => cases h

section Brackets

variable {value value' : ValueReader} {bound bound' : Nat} {text t left : Bytes}

/-- An array that breaks off inside an item breaks off after a comma. -/
theorem items_breaks {seen : List Json}
    (h : items value (bound + 1) seen t = .error ⟨.endInValue, left⟩) :
    ∃ s₁, skipBlank t = Ascii.comma :: s₁ ∧
      (skipBlank s₁ = [] ∨
        ∃ b s₂, skipBlank s₁ = b :: s₂ ∧ b ≠ Ascii.closeBracket ∧
          (value (b :: s₂) = .error ⟨.endInValue, left⟩ ∨
            ∃ v s₃, value (b :: s₂) = .ok (v, s₃) ∧
              items value bound (v :: seen) s₃ = .error ⟨.endInValue, left⟩)) := by
  unfold items at h
  split at h
  next => cases h
  next => cases h
  next s₁ hcomma =>
      refine ⟨s₁, hcomma, ?_⟩
      split at h
      next hblank => exact .inl hblank
      next => cases h
      next hsome hopen =>
          obtain ⟨b, s₂, hskip⟩ := List.exists_cons_of_ne_nil hsome
          have hb : b ≠ Ascii.closeBracket := by
            rintro rfl
            exact hopen s₂ hskip
          rw [hskip] at h
          refine .inr ⟨b, s₂, hskip, hb, ?_⟩
          rcases bind_eq_error.mp h with hv | ⟨⟨v, s₃⟩, hv, hrest⟩
          · exact .inl hv
          · exact .inr ⟨v, s₃, hv, hrest⟩
  next => cases h

theorem items_breaks_over {seen : List Json}
    (h : items value bound seen t = .error ⟨.endInValue, left⟩) : Over t := by
  cases bound with
  | zero => cases h
  | succ n =>
      obtain ⟨_, hcomma, -⟩ := items_breaks h
      exact over_of_skipBlank hcomma rfl

theorem items_refuses (hvalue : Extends value value') (htext : ReadsText value)
    (hrefuses : Refuses value value' text) (hbegins : Begins text) {seen : List Json}
    (hready : Ready t) (hbound : bound ≤ bound')
    (h : items value bound seen t = .error ⟨.endInValue, left⟩) :
    Fails (items value' bound' seen (t ++ text)) := by
  induction bound generalizing bound' seen t with
  | zero => cases h
  | succ n ih =>
      obtain ⟨n', rfl⟩ : ∃ n', bound' = n' + 1 := ⟨bound' - 1, by omega⟩
      have hle : n ≤ n' := by omega
      obtain ⟨s₁, hcomma, hblank | ⟨b, s₂, hskip, hb, hitem⟩⟩ := items_breaks h
      · -- The number stands where the next item was due.
        obtain ⟨b, s, rfl, hskip, hb, -⟩ := skipBlank_begins hbegins hblank
        rw [items_item (skipBlank_append hcomma _) hskip hb]
        exact hrefuses.here.bind _
      · have hready₂ : Ready (b :: s₂) :=
          hskip ▸ (ready_token hready hcomma).suffix (List.dropWhile_suffix isBlank)
        rw [items_item (skipBlank_append hcomma text) (skipBlank_append hskip text) hb]
        rcases hitem with hv | ⟨v, s₃, hv, hrest⟩
        · exact (hrefuses.later _ left hready₂ hv).bind _
        · have hlonger := hvalue _ v s₃ hv (fun _ _ => items_breaks_over hrest) text
          exact .of_bind hlonger (ih (ready_left hready₂ (htext _ v s₃ hv)) hle hrest)

theorem array_refuses (hvalue : Extends value value') (htext : ReadsText value)
    (hrefuses : Refuses value value' text) (hbegins : Begins text) (hready : Ready t)
    (hbound : bound ≤ bound') (h : array bound value t = .error ⟨.endInValue, left⟩) :
    Fails (array bound' value' (t ++ text)) := by
  unfold array at h
  split at h
  next => cases h
  next => cases h
  next hsome hopen =>
      obtain ⟨b, s', hskip⟩ := List.exists_cons_of_ne_nil hsome
      have hb : b ≠ Ascii.closeBracket := by
        rintro rfl
        exact hopen s' hskip
      rw [array_item (skipBlank_append hskip text) hb]
      have hready' : Ready (b :: s') := hskip ▸ hready.suffix (List.dropWhile_suffix isBlank)
      rw [hskip] at h
      rcases bind_eq_error.mp h with hv | ⟨⟨v, s₁⟩, hv, hrest⟩
      · exact (hrefuses.later _ left hready' hv).bind _
      · have hlonger := hvalue _ v s₁ hv (fun _ _ => items_breaks_over hrest) text
        exact .of_bind hlonger (items_refuses hvalue htext hrefuses hbegins
          (ready_left hready' (htext _ v s₁ hv)) hbound hrest)

theorem member_refuses (hrefuses : Refuses value value' text) (hready : Ready t)
    (hbound : bound ≤ bound') (h : member bound value t = .error ⟨.endInValue, left⟩) :
    Fails (member bound' value' (t ++ text)) := by
  rcases bind_eq_error.mp h with hname | ⟨⟨name, s₁⟩, hname, hrest⟩
  · exact absurd rfl (Quoted.read_cause hname)
  refine .of_bind (Quoted.read_append hname hbound text) ?_
  have hready₁ := ready_left hready (Quoted.read_text hname)
  dsimp only at hrest ⊢
  split at hrest
  next => cases hrest
  next s₂ hcolon =>
      rw [skipBlank_append hcolon text]
      rcases bind_eq_error.mp hrest with hv | ⟨_, -, hdone⟩
      · exact (hrefuses.later s₂ left (ready_token hready₁ hcolon) hv).bind _
      · cases hdone
  next => cases hrest

/-- An object that breaks off inside a member breaks off after a comma. -/
theorem members_breaks {whole : Nat} {seen : Members}
    (h : members whole value (bound + 1) seen t = .error ⟨.endInValue, left⟩) :
    ∃ s₁, skipBlank t = Ascii.comma :: s₁ ∧
      (skipBlank s₁ = [] ∨
        ∃ s₂, skipBlank s₁ = Ascii.quote :: s₂ ∧
          (member whole value s₂ = .error ⟨.endInValue, left⟩ ∨
            ∃ m s₃, member whole value s₂ = .ok (m, s₃) ∧
              members whole value bound (m :: seen) s₃ = .error ⟨.endInValue, left⟩)) := by
  unfold members at h
  split at h
  next => cases h
  next => cases h
  next s₁ hcomma =>
      refine ⟨s₁, hcomma, ?_⟩
      split at h
      next hblank => exact .inl hblank
      next s₂ hquote =>
          refine .inr ⟨s₂, hquote, ?_⟩
          rcases bind_eq_error.mp h with hm | ⟨⟨m, s₃⟩, hm, hrest⟩
          · exact .inl hm
          · exact .inr ⟨m, s₃, hm, hrest⟩
      next => cases h
      next => cases h
  next => cases h

theorem members_breaks_over {whole : Nat} {seen : Members}
    (h : members whole value bound seen t = .error ⟨.endInValue, left⟩) : Over t := by
  cases bound with
  | zero => cases h
  | succ n =>
      obtain ⟨_, hcomma, -⟩ := members_breaks h
      exact over_of_skipBlank hcomma rfl

/-- A member has a name. -/
theorem members_key {s s' : Bytes} {b : UInt8} (hcomma : skipBlank t = Ascii.comma :: s)
    (hskip : skipBlank s = b :: s') (hquote : b ≠ Ascii.quote) (hclose : b ≠ Ascii.closeBrace)
    (whole bound : Nat) (seen : Members) :
    members whole value (bound + 1) seen t = .error ⟨.keyNotString, s'⟩ := by
  rw [members]
  split
  next heq =>
      rw [hcomma] at heq
      cases heq
  next heq =>
      rw [hcomma] at heq
      cases heq
  next s₁ heq =>
      rw [hcomma] at heq
      obtain rfl := (List.cons.inj heq).2
      rw [hskip]
      split
      next heq => cases heq
      next heq => exact absurd (List.cons.inj heq).1 hquote
      next heq => exact absurd (List.cons.inj heq).1 hclose
      next heq => rw [(List.cons.inj heq).2]
  next hother heq =>
      rw [hcomma] at heq
      exact absurd (List.cons.inj heq).1.symm hother

theorem members_refuses (hvalue : Extends value value') (htext : ReadsText value)
    (hrefuses : Refuses value value' text) (hbegins : Begins text) {whole whole' : Nat}
    (hwhole : whole ≤ whole') {seen : Members} (hready : Ready t) (hbound : bound ≤ bound')
    (h : members whole value bound seen t = .error ⟨.endInValue, left⟩) :
    Fails (members whole' value' bound' seen (t ++ text)) := by
  induction bound generalizing bound' seen t with
  | zero => cases h
  | succ n ih =>
      obtain ⟨n', rfl⟩ : ∃ n', bound' = n' + 1 := ⟨bound' - 1, by omega⟩
      have hle : n ≤ n' := by omega
      obtain ⟨s₁, hcomma, hblank | ⟨s₂, hquote, hmember⟩⟩ := members_breaks h
      · -- The number stands where a name was due.
        obtain ⟨b, s, rfl, hskip, -, hclose, hquote⟩ := skipBlank_begins hbegins hblank
        exact ⟨_, members_key (skipBlank_append hcomma _) hskip hquote hclose whole' n' seen⟩
      · have hready₂ := ready_token (ready_token hready hcomma) hquote
        rw [members_member (skipBlank_append hcomma text) (skipBlank_append hquote text)]
        rcases hmember with hm | ⟨m, s₃, hm, hrest⟩
        · exact (member_refuses hrefuses hready₂ hwhole hm).bind _
        · have hlonger := member_append hvalue hm (members_breaks_over hrest) hwhole text
          exact .of_bind hlonger (ih (ready_left hready₂ (member_text htext hm)) hle hrest)

theorem object_refuses (hvalue : Extends value value') (htext : ReadsText value)
    (hrefuses : Refuses value value' text) (hbegins : Begins text) (hready : Ready t)
    (hbound : bound ≤ bound') (h : object bound value t = .error ⟨.endInValue, left⟩) :
    Fails (object bound' value' (t ++ text)) := by
  unfold object at h
  split at h
  next => cases h
  next => cases h
  next s₁ hquote =>
      have hready₁ := ready_token hready hquote
      rw [object, skipBlank_append hquote text]
      rcases bind_eq_error.mp h with hm | ⟨⟨m, s₂⟩, hm, hrest⟩
      · exact (member_refuses hrefuses hready₁ hbound hm).bind _
      · have hlonger := member_append hvalue hm (members_breaks_over hrest) hbound text
        exact .of_bind hlonger (members_refuses hvalue htext hrefuses hbegins hbound
          (ready_left hready₁ (member_text htext hm)) hbound hrest)
  next => cases h

end Brackets

theorem valueWith_refuses {deeper deeper' : Option ValueReader} {bound bound' : Nat} {text : Bytes}
    (hdeeper : ∀ value ∈ deeper, ∃ value' ∈ deeper',
      Extends value value' ∧ ReadsText value ∧ Refuses value value' text)
    (hbegins : Begins text) (hbound : bound ≤ bound')
    (hhere : Fails (valueWith bound' deeper' text)) :
    Refuses (valueWith bound deeper) (valueWith bound' deeper') text := by
  refine ⟨hhere, fun t left hready h => ?_⟩
  unfold valueWith at h
  split at h
  next hblank =>
      obtain ⟨b, s, rfl, hskip, -⟩ := skipBlank_begins hbegins hblank
      rw [← valueWith_skipBlank, hskip]
      exact hhere
  next heq =>
      rw [valueWith, skipBlank_append heq text]
      exact word_refuses hbegins (by simp [Ascii.minus, Ascii.isDigit]) h
  next heq =>
      rw [valueWith, skipBlank_append heq text]
      exact word_refuses hbegins (by simp [Ascii.minus, Ascii.isDigit]) h
  next heq =>
      rw [valueWith, skipBlank_append heq text]
      exact word_refuses hbegins (by simp [Ascii.minus, Ascii.isDigit]) h
  next =>
      rcases bind_eq_error.mp h with htext | ⟨_, -, hdone⟩
      · exact absurd rfl (Quoted.read_cause htext)
      · cases hdone
  next heq =>
      split at h
      next => cases h
      next value =>
          obtain ⟨value', rfl, hvalue, htext, hrefuses⟩ := hdeeper value rfl
          rw [valueWith, skipBlank_append heq text]
          rcases bind_eq_error.mp h with hvs | ⟨_, -, hdone⟩
          · exact (array_refuses hvalue htext hrefuses hbegins (ready_token hready heq) hbound
              hvs).bind _
          · cases hdone
  next heq =>
      split at h
      next => cases h
      next value =>
          obtain ⟨value', rfl, hvalue, htext, hrefuses⟩ := hdeeper value rfl
          rw [valueWith, skipBlank_append heq text]
          rcases bind_eq_error.mp h with hms | ⟨_, -, hdone⟩
          · exact (object_refuses hvalue htext hrefuses hbegins (ready_token hready heq) hbound
              hms).bind _
          · cases hdone
  next s heq =>
      -- A number that breaks off is not ready for another one.
      have hsuffix : skipBlank t <:+ t := List.dropWhile_suffix isBlank
      rw [heq] at hsuffix
      rcases bind_eq_error.mp h with hx | ⟨_, -, hdone⟩
      · obtain rfl := Number.read_breaks (ready_token hready heq) hx
        exact absurd hsuffix (hready.not_suffix (s := []) rfl)
      · cases hdone
  next heq =>
      split at h
      next =>
          have hready' : Ready (skipBlank t) := hready.suffix (List.dropWhile_suffix isBlank)
          rw [heq] at hready'
          rcases bind_eq_error.mp h with hx | ⟨_, -, hdone⟩
          · cases Number.read_breaks hready' hx
          · cases hdone
      next => cases h

end Reader

/-! ## Texts with a number out of the range -/

namespace Numeral

/-- A number text starts with a minus sign or a digit. -/
theorem begins (n : Numeral) (rest : Bytes) : Number.Begins (n.bytes ++ rest) := by
  obtain ⟨b, s, hwhole⟩ := List.exists_cons_of_ne_nil n.whole_ne_nil
  have hb := n.isDigit_whole b (hwhole ▸ List.mem_cons_self)
  rw [bytes, unsigned, hwhole]
  split
  next => exact ⟨Ascii.minus, _, rfl, .inl rfl⟩
  next => exact ⟨b, _, rfl, .inr hb⟩

end Numeral

section OutOfRange

variable {n : Numeral} {back : Bytes}

/-- A value does not start with a number out of the range. -/
theorem Reader.valueWith_outOfRange (hlength : n.bytes.length < 2 ^ 31)
    (h : Number.outOfRange ≤ n.magnitude) (hback : Number.Stops back) (bound : Nat)
    (deeper : Option ValueReader) : Fails (valueWith bound deeper (n.bytes ++ back)) := by
  rw [Numeral.bytes]
  split
  next => exact Fails.bind (Number.read_outOfRange n hlength h hback true) _
  next hsign =>
      have hread : Fails (Number.read false (n.unsigned ++ back)) :=
        Number.read_outOfRange n hlength h hback false
      obtain ⟨b, s, hwhole⟩ := List.exists_cons_of_ne_nil n.whole_ne_nil
      have hb := n.isDigit_whole b (hwhole ▸ List.mem_cons_self)
      rw [Numeral.unsigned, hwhole, List.append_assoc, List.cons_append] at hread ⊢
      rw [valueWith_digit hb]
      exact hread.bind _

theorem Reader.value_refuses (hlength : n.bytes.length < 2 ^ 31)
    (h : Number.outOfRange ≤ n.magnitude) (hback : Number.Stops back) {bound bound' : Nat}
    (hbound : bound ≤ bound') (depth : Nat) :
    Refuses (value bound depth) (value bound' depth) (n.bytes ++ back) := by
  induction depth with
  | zero =>
      exact valueWith_refuses (fun value hmem => by cases hmem) (n.begins back) hbound
        (valueWith_outOfRange hlength h hback bound' none)
  | succ depth ih =>
      refine valueWith_refuses (fun value hmem => ?_) (n.begins back) hbound
        (valueWith_outOfRange hlength h hback bound' _)
      cases hmem
      exact ⟨_, rfl, value_append hbound depth, value_text bound depth, ih⟩

/-- Whether a text breaks off where a value is due. -/
def BreaksOff (text : Bytes) : Prop := ∃ place, read text = .error ⟨.endInValue, place⟩

theorem breaksOff_iff {text : Bytes} :
    BreaksOff text ↔ ∃ left, Reader.document text = .error ⟨.endInValue, left⟩ := by
  rw [BreaksOff, read]
  cases Reader.document text with
  | ok v =>
      constructor
      · rintro ⟨_, h⟩
        cases h
      · rintro ⟨_, h⟩
        cases h
  | error fault =>
      obtain ⟨cause, left⟩ := fault
      constructor
      · rintro ⟨place, h⟩
        have hcause : cause = .endInValue := congrArg SyntaxError.cause (Except.error.inj h)
        exact ⟨left, by rw [hcause]⟩
      · rintro ⟨left', h⟩
        cases h
        exact ⟨_, rfl⟩

instance (text : Bytes) : Decidable (BreaksOff text) :=
  match h : read text with
  | .ok _ => isFalse (by rintro ⟨place, hread⟩; rw [h] at hread; cases hread)
  | .error ⟨cause, place⟩ =>
    if hcause : cause = .endInValue then isTrue ⟨place, by rw [h, hcause]⟩
    else isFalse (by rintro ⟨place', hread⟩; rw [h] at hread; cases hread; exact hcause rfl)

/-- A text with a number out of the range is no JSON text, wherever a value is due. -/
theorem read_outOfRange {front : Bytes} (hfront : BreaksOff front) (hready : Number.Ready front)
    (hlength : n.bytes.length < 2 ^ 31) (h : Number.outOfRange ≤ n.magnitude)
    (hback : Number.Stops back) : ∃ error, read (front ++ (n.bytes ++ back)) = .error error := by
  have hbound : front.length ≤ (front ++ (n.bytes ++ back)).length := by
    rw [List.length_append]
    exact Nat.le_add_right ..
  obtain ⟨left, hdocument⟩ := breaksOff_iff.mp hfront
  have hvalue : Reader.value front.length Reader.maxDepth front = .error ⟨.endInValue, left⟩ := by
    rcases bind_eq_error.mp hdocument with hvalue | ⟨⟨v, s⟩, -, hend⟩
    · exact hvalue
    · dsimp only at hend
      split at hend
      next => cases hend
      next => cases hend
  have hrefuses := Reader.value_refuses hlength h hback hbound Reader.maxDepth
  have hfails := hrefuses.later front left hready hvalue
  obtain ⟨fault, hlonger⟩ : Fails (Reader.document (front ++ (n.bytes ++ back))) := hfails.bind _
  rw [read, hlonger]
  exact ⟨_, rfl⟩

end OutOfRange

end Json

end RemoteInput
