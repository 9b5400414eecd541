import RemoteInput.Json.Number

/-!
# The number reader and what follows the number

A number has no end of its own.  The reader goes on until a byte that cannot be
part of a number.  So what it makes of a text does not change when the text is
followed by something else, as long as that starts with no byte of a number
(`read_append`).  The bytes that the reader leaves are the last ones of the text
(`read_leaves`).
-/

namespace RemoteInput.Json.Number

open Ascii (isDigit)

/-- The bytes that a number is written with. -/
def isNumberByte (b : UInt8) : Bool :=
  isDigit b || b == Ascii.point || b == Ascii.plus || b == Ascii.minus || b == 0x65 || b == 0x45

/-- Whether a number ends before some bytes. -/
def Stops (rest : Bytes) : Prop := ∀ b ∈ rest.head?, isNumberByte b = false

theorem stops_cons {b : UInt8} (hb : isNumberByte b = false) (s : Bytes) : Stops (b :: s) := by
  intro b' hb'
  rw [List.head?_cons, Option.mem_some_iff] at hb'
  rwa [← hb']

/-- What a byte after a number is not. -/
theorem Stops.head {b : UInt8} {s : Bytes} (h : Stops (b :: s)) :
    isDigit b = false ∧ b ≠ Ascii.point ∧ b ≠ Ascii.plus ∧ b ≠ Ascii.minus ∧ b ≠ 0x65 ∧
      b ≠ 0x45 := by
  have hb := h b rfl
  simpa [isNumberByte, and_assoc] using hb

/-! ## Digits -/

theorem takeDigits_append {rest : Bytes} (h : Stops rest) (t : Bytes) (significand taken : Nat) :
    takeDigits significand taken (t ++ rest) =
      ((takeDigits significand taken t).1, (takeDigits significand taken t).2.1,
        (takeDigits significand taken t).2.2 ++ rest) := by
  induction t generalizing significand taken with
  | nil =>
      cases rest with
      | nil => rfl
      | cons b s => simp [takeDigits, h.head.1]
  | cons b t ih =>
      rw [List.cons_append, takeDigits, takeDigits]
      split
      · exact ih _ _
      · rfl

theorem dropDigits_append {rest : Bytes} (h : Stops rest) (t : Bytes) (dropped : Nat) :
    dropDigits dropped (t ++ rest) =
      ((dropDigits dropped t).1, (dropDigits dropped t).2 ++ rest) := by
  induction t generalizing dropped with
  | nil =>
      cases rest with
      | nil => rfl
      | cons b s => simp [dropDigits, h.head.1]
  | cons b t ih =>
      rw [List.cons_append, dropDigits, dropDigits]
      split
      · exact ih _
      · rfl

theorem exponentDigits_append {rest : Bytes} (h : Stops rest) (t : Bytes) (value : Nat) :
    exponentDigits value (t ++ rest) =
      ((exponentDigits value t).1, (exponentDigits value t).2 ++ rest) := by
  induction t generalizing value with
  | nil =>
      cases rest with
      | nil => rfl
      | cons b s => simp [exponentDigits, h.head.1]
  | cons b t ih =>
      rw [List.cons_append, exponentDigits, exponentDigits]
      split
      · split
        · exact ih _
        · rfl
      · rfl

/-! ## The parts of a number -/

/-- What a reader gives, with bytes after those it left.  How it fails is left out. -/
def followedBy {α : Type} (result : Except Fault (α × Bytes)) (rest : Bytes) :
    Option (α × Bytes) :=
  result.toOption.map fun r => (r.1, r.2 ++ rest)

@[simp] theorem followedBy_ok {α : Type} (x : α) (s rest : Bytes) :
    followedBy (.ok (x, s)) rest = some (x, s ++ rest) := rfl

@[simp] theorem followedBy_error {α : Type} (e : Fault) (rest : Bytes) :
    followedBy (.error e : Except Fault (α × Bytes)) rest = none := rfl

theorem eq_ok_of_toOption {ε α : Type} {result : Except ε α} {a : α}
    (h : result.toOption = some a) : result = .ok a := by
  cases result with
  | error e => cases h
  | ok a' => rw [Option.some.inj h]

theorem toOption_bind {α β : Type} (result : Except Fault α) (f : α → Except Fault β) :
    (result >>= f).toOption = result.toOption.bind fun a => (f a).toOption := by
  cases result <;> rfl

theorem wholePart_append {rest : Bytes} (h : Stops rest) (t : Bytes) :
    (wholePart (t ++ rest)).toOption = followedBy (wholePart t) rest := by
  cases t with
  | nil =>
      cases rest with
      | nil => rfl
      | cons b s =>
          -- A zero is tested for by itself, before the other digits.
          have hzero : b ≠ Ascii.zero := by
            intro hb
            have hdigit := h.head.1
            rw [hb] at hdigit
            exact absurd hdigit (by decide)
          simp [wholePart, hzero, h.head.1, Except.toOption]
  | cons b t =>
      simp only [List.cons_append, wholePart]
      split
      · cases t with
        | nil =>
            cases rest with
            | nil => rfl
            | cons c s => simp [h.head.1, Except.toOption]
        | cons c t =>
            simp only [List.cons_append]
            split <;> rfl
      · split
        · simp only [takeDigits_append h, dropDigits_append h]
          rfl
        · rfl

theorem fraction_other {b : UInt8} (hb : b ≠ Ascii.point) (parts : Parts) (s : Bytes) :
    fraction parts (b :: s) = .ok (parts, b :: s) := by
  rw [fraction]
  intro s' heq
  exact hb (List.cons.inj heq).1

theorem fraction_point (parts : Parts) (b : UInt8) (s : Bytes) :
    fraction parts (Ascii.point :: b :: s) =
      if isDigit b then
        .ok (⟨(takeDigits parts.significand 0 (b :: s)).1,
            parts.exponent - (takeDigits parts.significand 0 (b :: s)).2.1⟩,
          (dropDigits 0 (takeDigits parts.significand 0 (b :: s)).2.2).2)
      else .error ⟨.invalidNumber, s⟩ := rfl

theorem fraction_append {rest : Bytes} (h : Stops rest) (parts : Parts) (t : Bytes) :
    (fraction parts (t ++ rest)).toOption = followedBy (fraction parts t) rest := by
  cases t with
  | nil =>
      cases rest with
      | nil => rfl
      | cons b s =>
          rw [List.nil_append, fraction_other h.head.2.1]
          rfl
  | cons b t =>
      by_cases hb : b = Ascii.point
      · subst hb
        cases t with
        | nil =>
            cases rest with
            | nil => rfl
            | cons c s =>
                rw [List.singleton_append, fraction_point, h.head.1]
                rfl
        | cons c t =>
            rw [List.cons_append, List.cons_append, fraction_point, fraction_point,
              ← List.cons_append, takeDigits_append h]
            split
            · simp only [dropDigits_append h]
              rfl
            · rfl
      · rw [List.cons_append, fraction_other hb, fraction_other hb]
        rfl

theorem finish_append (parts : Parts) (t rest : Bytes) :
    (finish parts (t ++ rest)).toOption = followedBy (finish parts t) rest := by
  unfold finish
  cases scale parts.significand parts.exponent <;> rfl

theorem signedExponent_append {rest : Bytes} (h : Stops rest) (parts : Parts) (negative : Bool)
    (t : Bytes) :
    (signedExponent parts negative (t ++ rest)).toOption =
      followedBy (signedExponent parts negative t) rest := by
  cases t with
  | nil =>
      cases rest with
      | nil => rfl
      | cons b s => simp [signedExponent, h.head.1, Except.toOption]
  | cons b t =>
      simp only [List.cons_append, signedExponent, exponentDigits_append h]
      split
      · rcases exponentDigits (Ascii.digitValue b) t with ⟨_ | value, s⟩
        · simp only [dropDigits_append h]
          split <;> rfl
        · exact finish_append ..
      · rfl

/-- Reads the sign of an exponent part and its digits. -/
def signed (parts : Parts) : Bytes → Except Fault (Float × Bytes)
  | Ascii.plus :: s => signedExponent parts false s
  | Ascii.minus :: s => signedExponent parts true s
  | s => signedExponent parts false s

theorem exponentPart_cons (parts : Parts) (b : UInt8) (s : Bytes) :
    exponentPart parts (b :: s) =
      if b == 0x65 || b == 0x45 then signed parts s else finish parts (b :: s) := rfl

theorem signed_other {b : UInt8} (hplus : b ≠ Ascii.plus) (hminus : b ≠ Ascii.minus)
    (parts : Parts) (s : Bytes) :
    signed parts (b :: s) = signedExponent parts false (b :: s) := by
  rw [signed]
  · intro s' heq
    exact hplus (List.cons.inj heq).1
  · intro s' heq
    exact hminus (List.cons.inj heq).1

theorem signed_append {rest : Bytes} (h : Stops rest) (parts : Parts) (t : Bytes) :
    (signed parts (t ++ rest)).toOption = followedBy (signed parts t) rest := by
  cases t with
  | nil =>
      cases rest with
      | nil => rfl
      | cons b s =>
          rw [List.nil_append, signed_other h.head.2.2.1 h.head.2.2.2.1]
          exact signedExponent_append h parts false []
  | cons b t =>
      by_cases hplus : b = Ascii.plus
      · subst hplus
        exact signedExponent_append h parts false t
      by_cases hminus : b = Ascii.minus
      · subst hminus
        exact signedExponent_append h parts true t
      rw [List.cons_append, signed_other hplus hminus, signed_other hplus hminus]
      exact signedExponent_append h parts false (b :: t)

theorem exponentPart_append {rest : Bytes} (h : Stops rest) (parts : Parts) (t : Bytes) :
    (exponentPart parts (t ++ rest)).toOption = followedBy (exponentPart parts t) rest := by
  cases t with
  | nil =>
      cases rest with
      | nil => exact finish_append parts [] []
      | cons b s =>
          have hletter : ¬ (b == 0x65 || b == 0x45) = true := by simp [h.head]
          rw [List.nil_append, exponentPart_cons, if_neg hletter]
          exact finish_append parts [] (b :: s)
  | cons b t =>
      rw [List.cons_append, exponentPart_cons, exponentPart_cons]
      split
      · exact signed_append h parts t
      · exact finish_append parts (b :: t) rest

/-- Two readers in a row, each of which is not changed by what follows. -/
theorem bind_append {α β : Type} {first first' : Except Fault (α × Bytes)} {rest : Bytes}
    {next : α × Bytes → Except Fault (β × Bytes)}
    (hfirst : first'.toOption = followedBy first rest)
    (hnext : ∀ a s, (next (a, s ++ rest)).toOption = followedBy (next (a, s)) rest) :
    (first' >>= next).toOption = followedBy (first >>= next) rest := by
  rw [toOption_bind, hfirst]
  cases first with
  | error e => rfl
  | ok r => exact hnext r.1 r.2

theorem unsigned_append {rest : Bytes} (h : Stops rest) (t : Bytes) :
    (unsigned (t ++ rest)).toOption = followedBy (unsigned t) rest := by
  unfold unsigned
  refine bind_append (wholePart_append h t) fun parts s => ?_
  exact bind_append (fraction_append h parts s) fun parts s => exponentPart_append h parts s

/-- What a number is read as does not change with what follows it. -/
theorem read_append {rest : Bytes} (h : Stops rest) (negative : Bool) (t : Bytes) :
    (read negative (t ++ rest)).toOption = followedBy (read negative t) rest := by
  unfold read
  exact bind_append (unsigned_append h t) fun x s => rfl

/-! ## What is left -/

/-- Whether a reader that succeeds on some bytes leaves the last ones of them. -/
def Leaves {α : Type} (t : Bytes) (result : Except Fault (α × Bytes)) : Prop :=
  ∀ a s, result = .ok (a, s) → s <:+ t

theorem Leaves.ok {α : Type} {t s : Bytes} (h : s <:+ t) (a : α) :
    Leaves t (.ok (a, s) : Except Fault (α × Bytes)) := by
  intro a' s' heq
  cases heq
  exact h

theorem Leaves.error {α : Type} (t : Bytes) (e : Fault) :
    Leaves t (.error e : Except Fault (α × Bytes)) := by
  intro a s heq
  cases heq

theorem Leaves.bind {α β : Type} {t : Bytes} {first : Except Fault (α × Bytes)}
    {next : α × Bytes → Except Fault (β × Bytes)} (hfirst : Leaves t first)
    (hnext : ∀ a s, s <:+ t → Leaves t (next (a, s))) : Leaves t (first >>= next) := by
  cases first with
  | error e => exact Leaves.error t e
  | ok r => exact hnext r.1 r.2 (hfirst r.1 r.2 rfl)

theorem takeDigits_suffix (t : Bytes) (significand taken : Nat) :
    (takeDigits significand taken t).2.2 <:+ t := by
  induction t generalizing significand taken with
  | nil => exact List.suffix_refl []
  | cons b t ih =>
      rw [takeDigits]
      split
      · exact (ih _ _).trans (List.suffix_cons b t)
      · exact List.suffix_refl _

theorem dropDigits_suffix (t : Bytes) (dropped : Nat) : (dropDigits dropped t).2 <:+ t := by
  induction t generalizing dropped with
  | nil => exact List.suffix_refl []
  | cons b t ih =>
      rw [dropDigits]
      split
      · exact (ih _).trans (List.suffix_cons b t)
      · exact List.suffix_refl _

theorem exponentDigits_suffix (t : Bytes) (value : Nat) : (exponentDigits value t).2 <:+ t := by
  induction t generalizing value with
  | nil => exact List.suffix_refl []
  | cons b t ih =>
      rw [exponentDigits]
      split
      · split
        · exact (ih _).trans (List.suffix_cons b t)
        · exact List.suffix_cons b t
      · exact List.suffix_refl _

theorem wholePart_leaves (t : Bytes) : Leaves t (wholePart t) := by
  cases t with
  | nil => exact Leaves.error _ _
  | cons b t =>
      unfold wholePart
      simp only
      split
      · cases t with
        | nil => exact Leaves.ok (List.nil_suffix) _
        | cons c t =>
            simp only
            split
            · exact Leaves.error _ _
            · exact Leaves.ok (List.suffix_cons b _) _
      · split
        · refine Leaves.ok ?_ _
          exact (dropDigits_suffix _ _).trans
            ((takeDigits_suffix _ _ _).trans (List.suffix_cons b t))
        · exact Leaves.error _ _

theorem fraction_leaves (parts : Parts) (t : Bytes) : Leaves t (fraction parts t) := by
  cases t with
  | nil => exact Leaves.ok (List.suffix_refl []) _
  | cons b t =>
      by_cases hb : b = Ascii.point
      · subst hb
        cases t with
        | nil => exact Leaves.error _ _
        | cons c t =>
            rw [fraction_point]
            split
            · refine Leaves.ok ?_ _
              exact (dropDigits_suffix _ _).trans
                ((takeDigits_suffix _ _ _).trans (List.suffix_cons _ _))
            · exact Leaves.error _ _
      · rw [fraction_other hb]
        exact Leaves.ok (List.suffix_refl _) _

theorem finish_leaves (parts : Parts) (t : Bytes) : Leaves t (finish parts t) := by
  unfold finish
  split
  · exact Leaves.ok (List.suffix_refl t) _
  · exact Leaves.error _ _

theorem Leaves.mono {α : Type} {t t' : Bytes} {result : Except Fault (α × Bytes)}
    (h : Leaves t result) (hsuffix : t <:+ t') : Leaves t' result :=
  fun a s heq => (h a s heq).trans hsuffix

theorem signedExponent_leaves (parts : Parts) (negative : Bool) (t : Bytes) :
    Leaves t (signedExponent parts negative t) := by
  cases t with
  | nil => exact Leaves.error _ _
  | cons b t =>
      have hdigits := exponentDigits_suffix t (Ascii.digitValue b)
      rw [signedExponent]
      split
      · rcases hread : exponentDigits (Ascii.digitValue b) t with ⟨_ | value, s⟩
        · rw [hread] at hdigits
          simp only
          split
          · exact Leaves.error _ _
          · refine Leaves.ok ?_ _
            exact (dropDigits_suffix _ _).trans (hdigits.trans (List.suffix_cons b t))
        · rw [hread] at hdigits
          exact (finish_leaves _ s).mono (hdigits.trans (List.suffix_cons b t))
      · exact Leaves.error _ _

theorem signed_leaves (parts : Parts) (t : Bytes) : Leaves t (signed parts t) := by
  unfold signed
  split
  · exact (signedExponent_leaves _ _ _).mono (List.suffix_cons _ _)
  · exact (signedExponent_leaves _ _ _).mono (List.suffix_cons _ _)
  · exact signedExponent_leaves _ _ _

theorem exponentPart_leaves (parts : Parts) (t : Bytes) : Leaves t (exponentPart parts t) := by
  cases t with
  | nil => exact finish_leaves parts []
  | cons b t =>
      rw [exponentPart_cons]
      split
      · exact (signed_leaves parts t).mono (List.suffix_cons b t)
      · exact finish_leaves parts (b :: t)

theorem unsigned_leaves (t : Bytes) : Leaves t (unsigned t) := by
  unfold unsigned
  refine (wholePart_leaves t).bind fun parts s hwhole => ?_
  refine ((fraction_leaves parts s).mono hwhole).bind fun parts s hfraction => ?_
  exact (exponentPart_leaves parts s).mono hfraction

/-- A number leaves the last bytes of the text it starts. -/
theorem read_leaves (negative : Bool) (t : Bytes) : Leaves t (read negative t) := by
  unfold read
  exact (unsigned_leaves t).bind fun x s hsuffix => Leaves.ok hsuffix _

end RemoteInput.Json.Number
