import RemoteInput.Proofs.Basics
import RemoteInput.Proofs.Printed

/-!
# What a reader that succeeds has read

A reader looks at the next byte that is not blank and goes on accordingly.  For each
reader it is said here, in one lemma, with what bytes and what readers inside it succeeds
(`items_eq_ok`, `members_eq_ok`, `valueWith_eq_ok`), and in small equations what it does
after each of these bytes.  Whatever is to be shown of everything that is read is shown
for these cases.
-/

namespace RemoteInput.Json.Reader

variable {value : ValueReader} {bound : Nat} {t s : Bytes}

/-! ## Arrays -/

theorem items_close (h : skipBlank t = Ascii.closeBracket :: s) (bound : Nat)
    (seen : List Json) : items value (bound + 1) seen t = .ok (seen.reverse, s) := by
  rw [items, h]
  rfl

theorem items_item {s' : Bytes} {b : UInt8} (hcomma : skipBlank t = Ascii.comma :: s)
    (hskip : skipBlank s = b :: s') (hb : b ≠ Ascii.closeBracket) (bound : Nat)
    (seen : List Json) :
    items value (bound + 1) seen t =
      (do
        let (v, s) ← value (b :: s')
        items value bound (v :: seen) s) := by
  rw [items]
  split
  next heq =>
      rw [hcomma] at heq
      cases heq
  next heq =>
      rw [hcomma] at heq
      cases heq
  next s₁ heq =>
      rw [hcomma] at heq
      obtain rfl := (List.cons.inj heq).2
      rw [hskip]
      split
      next heq => cases heq
      next heq => exact absurd (List.cons.inj heq).1 hb
      next => rfl
  next hother heq =>
      rw [hcomma] at heq
      exact absurd (List.cons.inj heq).1.symm hother

/-- The bracket was closed, or there was one more item. -/
theorem items_eq_ok {seen vs : List Json} :
    items value (bound + 1) seen t = .ok (vs, s) ↔
      (skipBlank t = Ascii.closeBracket :: s ∧ vs = seen.reverse) ∨
        ∃ s₁ b s₂ v s₃, skipBlank t = Ascii.comma :: s₁ ∧ skipBlank s₁ = b :: s₂ ∧
          b ≠ Ascii.closeBracket ∧ value (b :: s₂) = .ok (v, s₃) ∧
          items value bound (v :: seen) s₃ = .ok (vs, s) := by
  constructor
  · intro h
    unfold items at h
    split at h
    next => cases h
    next hclose =>
        cases h
        exact .inl ⟨hclose, rfl⟩
    next s₁ hcomma =>
        split at h
        next => cases h
        next => cases h
        next hsome hopen =>
            obtain ⟨⟨v, s₃⟩, hv, hrest⟩ := bind_eq_ok.mp h
            obtain ⟨b, s₂, hskip⟩ := List.exists_cons_of_ne_nil hsome
            rw [hskip] at hv
            refine .inr ⟨s₁, b, s₂, v, s₃, hcomma, hskip, ?_, hv, hrest⟩
            rintro rfl
            exact hopen s₂ hskip
    next => cases h
  · rintro (⟨hclose, rfl⟩ | ⟨s₁, b, s₂, v, s₃, hcomma, hskip, hb, hv, hrest⟩)
    · exact items_close hclose bound seen
    · rw [items_item hcomma hskip hb]
      exact bind_eq_ok.mpr ⟨(v, s₃), hv, hrest⟩

theorem array_close {t s : Bytes} (h : skipBlank t = Ascii.closeBracket :: s) (bound : Nat) :
    array bound value t = .ok ([], s) := by
  rw [array, h]
  rfl

theorem array_item {t s : Bytes} {b : UInt8} (hskip : skipBlank t = b :: s)
    (hb : b ≠ Ascii.closeBracket) (bound : Nat) :
    array bound value t =
      (do
        let (v, s) ← value (b :: s)
        items value bound [v] s) := by
  rw [array, hskip]
  split
  next heq => cases heq
  next heq => exact absurd (List.cons.inj heq).1 hb
  next => rfl

theorem array_eq_ok {vs : List Json} :
    array bound value t = .ok (vs, s) ↔
      (skipBlank t = Ascii.closeBracket :: s ∧ vs = []) ∨
        ∃ b s₁ v s₂, skipBlank t = b :: s₁ ∧ b ≠ Ascii.closeBracket ∧
          value (b :: s₁) = .ok (v, s₂) ∧ items value bound [v] s₂ = .ok (vs, s) := by
  constructor
  · intro h
    unfold array at h
    split at h
    next => cases h
    next hclose =>
        cases h
        exact .inl ⟨hclose, rfl⟩
    next hsome hopen =>
        obtain ⟨⟨v, s₂⟩, hv, hrest⟩ := bind_eq_ok.mp h
        obtain ⟨b, s₁, hskip⟩ := List.exists_cons_of_ne_nil hsome
        rw [hskip] at hv
        refine .inr ⟨b, s₁, v, s₂, hskip, ?_, hv, hrest⟩
        rintro rfl
        exact hopen s₁ hskip
  · rintro (⟨hclose, rfl⟩ | ⟨b, s₁, v, s₂, hskip, hb, hv, hrest⟩)
    · exact array_close hclose bound
    · rw [array_item hskip hb]
      exact bind_eq_ok.mpr ⟨(v, s₂), hv, hrest⟩

/-! ## Objects -/

/-- A member is a name, a colon and a value. -/
theorem member_eq_ok {m : String × Json} :
    member bound value t = .ok (m, s) ↔
      ∃ s₁ s₂, Quoted.read bound t = .ok (m.1, s₁) ∧ skipBlank s₁ = Ascii.colon :: s₂ ∧
        value s₂ = .ok (m.2, s) := by
  constructor
  · intro h
    obtain ⟨⟨name, s₁⟩, hname, hrest⟩ := bind_eq_ok.mp h
    dsimp only at hrest
    split at hrest
    next => cases hrest
    next s₂ hcolon =>
        obtain ⟨⟨v, s₃⟩, hv, hdone⟩ := bind_eq_ok.mp hrest
        cases hdone
        exact ⟨s₁, s₂, hname, hcolon, hv⟩
    next => cases hrest
  · rintro ⟨s₁, s₂, hname, hcolon, hv⟩
    refine bind_eq_ok.mpr ⟨(m.1, s₁), hname, ?_⟩
    dsimp only
    rw [hcolon]
    exact bind_eq_ok.mpr ⟨(m.2, s), hv, rfl⟩

theorem members_close {t s : Bytes} (h : skipBlank t = Ascii.closeBrace :: s) (whole bound : Nat)
    (seen : Members) : members whole value (bound + 1) seen t = .ok (seen.reverse, s) := by
  rw [members, h]
  rfl

theorem members_member {t s s' : Bytes} (hcomma : skipBlank t = Ascii.comma :: s)
    (hquote : skipBlank s = Ascii.quote :: s') (whole bound : Nat) (seen : Members) :
    members whole value (bound + 1) seen t =
      (do
        let (m, s) ← member whole value s'
        members whole value bound (m :: seen) s) := by
  rw [members]
  split
  next heq =>
      rw [hcomma] at heq
      cases heq
  next heq =>
      rw [hcomma] at heq
      cases heq
  next s₁ heq =>
      rw [hcomma] at heq
      obtain rfl := (List.cons.inj heq).2
      rw [hquote]
      rfl
  next hother heq =>
      rw [hcomma] at heq
      exact absurd (List.cons.inj heq).1.symm hother

/-- The brace was closed, or there was one more member. -/
theorem members_eq_ok {whole : Nat} {seen ms : Members} :
    members whole value (bound + 1) seen t = .ok (ms, s) ↔
      (skipBlank t = Ascii.closeBrace :: s ∧ ms = seen.reverse) ∨
        ∃ s₁ s₂ m s₃, skipBlank t = Ascii.comma :: s₁ ∧ skipBlank s₁ = Ascii.quote :: s₂ ∧
          member whole value s₂ = .ok (m, s₃) ∧
          members whole value bound (m :: seen) s₃ = .ok (ms, s) := by
  constructor
  · intro h
    unfold members at h
    split at h
    next => cases h
    next hclose =>
        cases h
        exact .inl ⟨hclose, rfl⟩
    next s₁ hcomma =>
        split at h
        next => cases h
        next s₂ hquote =>
            obtain ⟨⟨m, s₃⟩, hm, hrest⟩ := bind_eq_ok.mp h
            exact .inr ⟨s₁, s₂, m, s₃, hcomma, hquote, hm, hrest⟩
        next => cases h
        next => cases h
    next => cases h
  · rintro (⟨hclose, rfl⟩ | ⟨s₁, s₂, m, s₃, hcomma, hquote, hm, hrest⟩)
    · exact members_close hclose whole bound seen
    · rw [members_member hcomma hquote]
      exact bind_eq_ok.mpr ⟨(m, s₃), hm, hrest⟩

theorem object_eq_ok {ms : Members} :
    object bound value t = .ok (ms, s) ↔
      (skipBlank t = Ascii.closeBrace :: s ∧ ms = []) ∨
        ∃ s₁ m s₂, skipBlank t = Ascii.quote :: s₁ ∧ member bound value s₁ = .ok (m, s₂) ∧
          members bound value bound [m] s₂ = .ok (ms, s) := by
  constructor
  · intro h
    unfold object at h
    split at h
    next => cases h
    next hclose =>
        cases h
        exact .inl ⟨hclose, rfl⟩
    next s₁ hquote =>
        obtain ⟨⟨m, s₂⟩, hm, hrest⟩ := bind_eq_ok.mp h
        exact .inr ⟨s₁, m, s₂, hquote, hm, hrest⟩
    next => cases h
  · rintro (⟨hclose, rfl⟩ | ⟨s₁, m, s₂, hquote, hm, hrest⟩)
    · rw [object, hclose]
      rfl
    · rw [object, hquote]
      exact bind_eq_ok.mpr ⟨(m, s₂), hm, hrest⟩

/-! ## Values -/

theorem word_eq {v v' : Json} {ws t s : Bytes} (h : word v ws t = .ok (v', s)) : v' = v := by
  induction ws generalizing t with
  | nil =>
      cases h
      rfl
  | cons w ws ih =>
      cases t with
      | nil => cases h
      | cons b t =>
          unfold word at h
          split at h
          next => exact ih h
          next => cases h

/-- The words that are values, each with its first byte and the bytes after that. -/
def words : List (UInt8 × Json × Bytes) :=
  [ (Ascii.letterN, .null, [0x75, 0x6C, 0x6C]),
    (Ascii.letterT, .boolean true, [0x72, 0x75, 0x65]),
    (Ascii.letterF, .boolean false, [0x61, 0x6C, 0x73, 0x65]) ]

/-- The values that a text may start with, each with what is left. -/
inductive Starts (bound : Nat) (deeper : Option ValueReader) (t : Bytes) : Json → Bytes → Prop
  | word {b : UInt8} {v : Json} {ws s₁ s : Bytes} (first : skipBlank t = b :: s₁)
    (hword : (b, v, ws) ∈ words) (rest : word v ws s₁ = .ok (v, s)) : Starts bound deeper t v s
  | string {text : String} {s₁ s : Bytes} (first : skipBlank t = Ascii.quote :: s₁)
    (rest : Quoted.read bound s₁ = .ok (text, s)) : Starts bound deeper t (.string text) s
  | array {value : ValueReader} {vs : List Json} {s₁ s : Bytes}
    (first : skipBlank t = Ascii.openBracket :: s₁) (hvalue : value ∈ deeper)
    (rest : array bound value s₁ = .ok (vs, s)) : Starts bound deeper t (.array vs) s
  | object {value : ValueReader} {ms : Members} {s₁ s : Bytes}
    (first : skipBlank t = Ascii.openBrace :: s₁) (hvalue : value ∈ deeper)
    (rest : object bound value s₁ = .ok (ms, s)) : Starts bound deeper t (.object ms) s
  | negative {x : Float} {s₁ s : Bytes} (first : skipBlank t = Ascii.minus :: s₁)
    (rest : Number.read true s₁ = .ok (x, s)) : Starts bound deeper t (.number x) s
  | number {x : Float} {b : UInt8} {s₁ s : Bytes} (first : skipBlank t = b :: s₁)
    (hdigit : Ascii.isDigit b = true) (rest : Number.read false (b :: s₁) = .ok (x, s)) :
    Starts bound deeper t (.number x) s

theorem valueWith_skipBlank (bound : Nat) (deeper : Option ValueReader) (t : Bytes) :
    valueWith bound deeper (skipBlank t) = valueWith bound deeper t := by
  have hskip : skipBlank (skipBlank t) = skipBlank t := by
    cases ht : skipBlank t with
    | nil => rfl
    | cons b s =>
        have hhead := List.head?_dropWhile_not isBlank t
        rw [← skipBlank, ht] at hhead
        exact skipBlank_cons (by simpa using hhead) s
  rw [valueWith, valueWith, hskip]

theorem valueWith_eq_ok {deeper : Option ValueReader} {v : Json} :
    valueWith bound deeper t = .ok (v, s) ↔ Starts bound deeper t v s := by
  constructor
  · intro h
    unfold valueWith at h
    split at h
    next => cases h
    next first =>
        obtain rfl := word_eq h
        exact .word first (by simp [words]) h
    next first =>
        obtain rfl := word_eq h
        exact .word first (by simp [words]) h
    next first =>
        obtain rfl := word_eq h
        exact .word first (by simp [words]) h
    next first =>
        obtain ⟨⟨text, s₁⟩, htext, hdone⟩ := bind_eq_ok.mp h
        cases hdone
        exact .string first htext
    next first =>
        split at h
        next => cases h
        next value =>
            obtain ⟨⟨vs, s₁⟩, hvs, hdone⟩ := bind_eq_ok.mp h
            cases hdone
            exact .array first rfl hvs
    next first =>
        split at h
        next => cases h
        next value =>
            obtain ⟨⟨ms, s₁⟩, hms, hdone⟩ := bind_eq_ok.mp h
            cases hdone
            exact .object first rfl hms
    next first =>
        obtain ⟨⟨x, s₁⟩, hx, hdone⟩ := bind_eq_ok.mp h
        cases hdone
        exact .negative first hx
    next first =>
        split at h
        next hdigit =>
            obtain ⟨⟨x, s₂⟩, hx, hdone⟩ := bind_eq_ok.mp h
            cases hdone
            exact .number first hdigit hx
        next => cases h
  · intro h
    cases h with
    | word first hword rest =>
        simp only [words, List.mem_cons, Prod.mk.injEq, List.not_mem_nil, or_false] at hword
        rcases hword with ⟨rfl, rfl, rfl⟩ | ⟨rfl, rfl, rfl⟩ | ⟨rfl, rfl, rfl⟩
        · rw [valueWith, first]
          exact rest
        · rw [valueWith, first]
          exact rest
        · rw [valueWith, first]
          exact rest
    | string first rest =>
        rw [valueWith, first]
        exact bind_eq_ok.mpr ⟨_, rest, rfl⟩
    | array first hvalue rest =>
        obtain rfl := hvalue
        rw [valueWith, first]
        exact bind_eq_ok.mpr ⟨_, rest, rfl⟩
    | object first hvalue rest =>
        obtain rfl := hvalue
        rw [valueWith, first]
        exact bind_eq_ok.mpr ⟨_, rest, rfl⟩
    | negative first rest =>
        rw [valueWith, first]
        exact bind_eq_ok.mpr ⟨_, rest, rfl⟩
    | number first hdigit rest =>
        rw [← valueWith_skipBlank, first, valueWith_digit hdigit]
        exact bind_eq_ok.mpr ⟨_, rest, rfl⟩

end RemoteInput.Json.Reader
