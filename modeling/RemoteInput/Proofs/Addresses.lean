import Mathlib.Data.List.TakeWhile
import RemoteInput.Address
import RemoteInput.Proofs.Digits

/-!
# Which texts are addresses

`IpAddress.Written` is the grammar of addresses.  An IPv4 address is written in one way only.
An IPv6 address is written as groups with colons between them (`Address.AreGroups`), in full or
with two colons for a run of zeros.  The reader takes exactly the texts of the grammar for
addresses, and for the address that they are written for (`parse?_eq_some`).

The reader is greedy: it takes as many digits and groups as it can, and an IPv4 address where
there is one.  What may follow the groups of an address is the end or two colons, and neither
goes on with a group (`Ends`).  So the groups that the grammar has are those that the reader
takes (`readGroups_append`), and the groups that it took are some of the grammar
(`readGroups_sound`).
-/

namespace RemoteInput

namespace Address

/-! ## The grammar -/

/-- The digits of a number of an IPv4 address. -/
def octetText (a : UInt8) : List Char := Nat.toDigits 10 a.toNat

/-- The form of an IPv4 address. -/
def v4Text (x : Ipv4) : List Char :=
  octetText x.a ++ '.' :: octetText x.b ++ '.' :: octetText x.c ++ '.' :: octetText x.d

/-- Whether a text is a group of an IPv6 address: up to four hexadecimal digits. -/
structure IsGroup (text : List Char) (g : UInt16) : Prop where
  ne_nil : text ≠ []
  length_le : text.length ≤ 4
  hex : ∀ c ∈ text, Digits.isHex c = true
  value_eq : g.toNat = Digits.value 16 text

/-- What stands in front of a group: a colon, unless it is the first one. -/
def colon (first : Bool) : List Char := if first then [] else [':']

/-- Whether a text is groups of an IPv6 address, which may be none.  An IPv4 address may stand at
their end for two of them. -/
inductive AreGroups : (first embedded : Bool) → List Char → List UInt16 → Prop where
  | none (first : Bool) : AreGroups first false [] []
  | ipv4 (first : Bool) (x : Ipv4) : AreGroups first true (colon first ++ v4Text x) x.toGroups
  | group (first : Bool) {embedded : Bool} {text more : List Char} {g : UInt16} {gs : List UInt16}
    (h : IsGroup text g) (hmore : AreGroups false embedded more gs) :
    AreGroups first embedded (colon first ++ (text ++ more)) (g :: gs)

/-- Whether a text is an IPv6 address: its eight groups, or those before and after a run of zeros
with two colons in the place of the run. -/
inductive IsV6 : List Char → Ipv6 → Prop where
  | full {embedded : Bool} {text : List Char} {x : Ipv6}
    (h : AreGroups true embedded text x.groups) : IsV6 text x
  | short {embedded : Bool} {before after : List Char} {head tail : List UInt16} {x : Ipv6}
    (hhead : AreGroups true false before head) (htail : AreGroups true embedded after tail)
    (hlength : head.length + tail.length < 8)
    (hgroups : x.groups =
      head ++ List.replicate (8 - head.length - tail.length) 0 ++ tail) :
    IsV6 (before ++ ':' :: ':' :: after) x

end Address

/-- Whether a text is the form of an address. -/
inductive IpAddress.Written : IpAddress → String → Prop where
  | v4 {x : Ipv4} {text : String} (h : text = x.text) : (IpAddress.v4 x).Written text
  | v6 {x : Ipv6} {text : String} (h : Address.IsV6 text.toList x) : (IpAddress.v6 x).Written text

namespace Address

/-! ## IPv4 addresses -/

theorem isDigit_octetText (a : UInt8) : ∀ c ∈ octetText a, c.isDigit = true :=
  Decimal.isDigit_toDigits a.toNat

theorem toList_text (x : Ipv4) : x.text.toList = v4Text x := by
  simp [Ipv4.text, v4Text, octetText, toString, Nat.repr]

/-- Characters of one kind in front of others are the ones that a reader takes. -/
theorem takeWhile_dropWhile {p : Char → Bool} {text rest : List Char}
    (htext : ∀ c ∈ text, p c = true) (hrest : ∀ c ∈ rest.head?, p c = false) :
    (text ++ rest).takeWhile p = text ∧ (text ++ rest).dropWhile p = rest := by
  rw [List.takeWhile_append_of_pos htext, List.dropWhile_append_of_pos htext]
  cases rest with
  | nil => exact ⟨List.append_nil text, rfl⟩
  | cons c rest =>
      have hc : ¬p c = true := by rw [hrest c rfl]; decide
      rw [List.takeWhile_cons_of_neg hc, List.dropWhile_cons_of_neg hc]
      exact ⟨List.append_nil text, rfl⟩

theorem octetText_of_readOctet {s rest : List Char} {a : UInt8} (h : readOctet s = some (a, rest)) :
    s = octetText a ++ rest := by
  simp only [readOctet] at h
  split at h
  · cases h
  · next hlength =>
    split at h
    · cases h
    · next hzero =>
      obtain ⟨n, hn, hpair⟩ := Option.map_eq_some_iff.mp h
      obtain ⟨hvalue, hlt⟩ := (Digits.valueBelow?_eq_some (by decide) (by decide)).mp hn
      obtain ⟨rfl, rfl⟩ := Prod.mk.inj hpair
      have hne : s.takeWhile Char.isDigit ≠ [] := by
        intro hnil
        rw [hnil] at hlength
        exact hlength rfl
      have hdigits : ∀ c ∈ s.takeWhile Char.isDigit, c.isDigit = true :=
        fun c hc => List.mem_takeWhile_imp hc
      have hhead : (s.takeWhile Char.isDigit).head? = some '0' →
          (s.takeWhile Char.isDigit).length = 1 := by
        intro hhead
        have hpos := List.length_pos_of_ne_nil hne
        have hle : ¬1 < (s.takeWhile Char.isDigit).length := by
          intro hlt
          exact hzero (by simp [hhead, hlt])
        omega
      have htext : octetText (UInt8.ofNat n) = s.takeWhile Char.isDigit := by
        rw [octetText, UInt8.toNat_ofNat_of_lt' hlt, ← hvalue,
          Digits.toDigits_value hne hdigits hhead]
      rw [htext, List.takeWhile_append_dropWhile]

theorem readOctet_octetText (a : UInt8) {rest : List Char}
    (hrest : ∀ c ∈ rest.head?, c.isDigit = false) :
    readOctet (octetText a ++ rest) = some (a, rest) := by
  obtain ⟨htake, hdrop⟩ := takeWhile_dropWhile (isDigit_octetText a) hrest
  have hlt : a.toNat < 256 := a.toNat_lt
  have hlength : (octetText a).length ≤ 3 :=
    (Nat.length_toDigits_le_iff (by decide) (by decide)).mpr (by omega)
  obtain ⟨c, cs, hcs⟩ := Decimal.toDigits_cons a.toNat
  have hcs' : octetText a = c :: cs := hcs
  have hvalue : Digits.valueBelow? 256 10 (octetText a) = some a.toNat :=
    (Digits.valueBelow?_eq_some (by decide) (by decide)).mpr ⟨Digits.value_toDigits _, hlt⟩
  simp only [readOctet, htake, hdrop]
  rw [if_neg, if_neg, hvalue, Option.map_some, UInt8.ofNat_toNat]
  · intro hzero
    obtain ⟨hhead, hlong⟩ := Bool.and_eq_true_iff.mp hzero
    rw [hcs', List.head?_cons, decide_eq_true_eq, Option.some_inj] at hhead
    rw [hcs', (Decimal.tail_toDigits hcs hhead).2] at hlong
    cases hlong
  · rw [hcs'] at hlength ⊢
    simpa using hlength

theorem octetText_of_readNextOctet {s rest : List Char} {a : UInt8}
    (h : readNextOctet s = some (a, rest)) : s = '.' :: octetText a ++ rest := by
  simp only [readNextOctet] at h
  split at h
  · rw [octetText_of_readOctet h, List.cons_append]
  · cases h

theorem v4Text_of_readV4 {s rest : List Char} {x : Ipv4} (h : readV4 s = some (x, rest)) :
    s = v4Text x ++ rest := by
  obtain ⟨⟨a, s₁⟩, ha, h⟩ := Option.bind_eq_some_iff.mp h
  obtain ⟨⟨b, s₂⟩, hb, h⟩ := Option.bind_eq_some_iff.mp h
  obtain ⟨⟨c, s₃⟩, hc, h⟩ := Option.bind_eq_some_iff.mp h
  obtain ⟨⟨d, s₄⟩, hd, h⟩ := Option.bind_eq_some_iff.mp h
  obtain ⟨rfl, rfl⟩ := Prod.mk.inj (Option.some.inj h)
  rw [octetText_of_readOctet ha, octetText_of_readNextOctet hb, octetText_of_readNextOctet hc,
    octetText_of_readNextOctet hd]
  simp [v4Text]

theorem readV4_v4Text (x : Ipv4) {rest : List Char} (hrest : ∀ c ∈ rest.head?, c.isDigit = false) :
    readV4 (v4Text x ++ rest) = some (x, rest) := by
  have hpoint : ∀ s : List Char, ∀ c ∈ ('.' :: s).head?, c.isDigit = false := by
    rintro s c ⟨⟩
    rfl
  simp only [v4Text, List.append_assoc, List.cons_append, readV4, readNextOctet,
    readOctet_octetText _ (hpoint _), readOctet_octetText _ hrest, Option.bind_eq_bind,
    Option.bind_some, Option.pure_def]

/-! ## Groups of an IPv6 address -/

theorem isHex_of_isDigit {c : Char} (h : c.isDigit = true) : Digits.isHex c = true := by
  rw [Digits.isHex, Digits.hexValue?, if_pos h]
  rfl

/-- Whether a text is over or goes on with a colon. -/
def AtColon (rest : List Char) : Prop := ∀ c ∈ rest.head?, c = ':'

theorem atColon_nil : AtColon [] := by
  rintro c ⟨⟩

theorem atColon_cons (rest : List Char) : AtColon (':' :: rest) := by
  rintro c ⟨⟩
  rfl

theorem AtColon.isHex_eq_false {rest : List Char} (h : AtColon rest) :
    ∀ c ∈ rest.head?, Digits.isHex c = false := by
  intro c hc
  rw [h c hc]
  rfl

theorem AtColon.isDigit_eq_false {rest : List Char} (h : AtColon rest) :
    ∀ c ∈ rest.head?, c.isDigit = false := by
  intro c hc
  rw [h c hc]
  rfl

/-- The groups of an address that is not its first part stand behind a colon. -/
theorem AreGroups.atColon {embedded : Bool} {text rest : List Char} {gs : List UInt16}
    (h : AreGroups false embedded text gs) (hrest : AtColon rest) : AtColon (text ++ rest) := by
  cases h with
  | none => exact hrest
  | ipv4 x => exact atColon_cons _
  | group hgroup hmore => exact atColon_cons _

theorem isGroup_of_readGroup {s rest : List Char} {g : UInt16} (h : readGroup s = some (g, rest)) :
    ∃ text, s = text ++ rest ∧ IsGroup text g := by
  simp only [readGroup] at h
  split at h
  · cases h
  · next hlength =>
    obtain ⟨rfl, rfl⟩ := Prod.mk.inj (Option.some.inj h)
    rw [Bool.or_eq_true, List.isEmpty_iff, decide_eq_true_eq, not_or, Nat.not_lt] at hlength
    obtain ⟨hne, hle⟩ := hlength
    have hlt : Digits.value 16 (s.takeWhile Digits.isHex) < UInt16.size :=
      Nat.lt_of_lt_of_le (Digits.value_lt_pow_length _) (Nat.pow_le_pow_right (by decide) hle)
    exact ⟨s.takeWhile Digits.isHex, List.takeWhile_append_dropWhile.symm, hne, hle,
      fun _ hc => List.mem_takeWhile_imp hc, UInt16.toNat_ofNat_of_lt' hlt⟩

theorem readGroup_append {text rest : List Char} {g : UInt16} (h : IsGroup text g)
    (hrest : AtColon rest) : readGroup (text ++ rest) = some (g, rest) := by
  obtain ⟨htake, hdrop⟩ := takeWhile_dropWhile h.hex hrest.isHex_eq_false
  have hlength : ¬(text.isEmpty || decide (4 < text.length)) = true := by
    rw [Bool.or_eq_true, List.isEmpty_iff, decide_eq_true_eq, not_or, Nat.not_lt]
    exact ⟨h.ne_nil, h.length_le⟩
  rw [readGroup, htake, hdrop, if_neg hlength, ← h.value_eq, UInt16.ofNat_toNat]

/-- A group is not the start of an IPv4 address, since no point follows its digits. -/
theorem readV4_group {text rest : List Char} (htext : ∀ c ∈ text, Digits.isHex c = true)
    (hrest : AtColon rest) : readV4 (text ++ rest) = none := by
  refine Option.eq_none_iff_forall_ne_some.mpr fun ⟨x, after⟩ h => ?_
  have hv4 := v4Text_of_readV4 h
  simp only [v4Text, List.append_assoc, List.cons_append] at hv4
  generalize octetText x.b ++ _ = more at hv4
  have hgroup : (text ++ rest).dropWhile Digits.isHex = rest :=
    (takeWhile_dropWhile htext hrest.isHex_eq_false).2
  have hoctet : (octetText x.a ++ '.' :: more).dropWhile Digits.isHex = '.' :: more := by
    refine (takeWhile_dropWhile (fun c hc => isHex_of_isDigit (isDigit_octetText x.a c hc)) ?_).2
    rintro c ⟨⟩
    rfl
  rw [hv4, hoctet] at hgroup
  rw [← hgroup] at hrest
  cases hrest '.' rfl

/-- Whether what follows the groups of an address may stand there: nothing, or the two colons that
stand for a run of zeros. -/
def Ends (rest : List Char) : Prop := rest = [] ∨ ∃ after, rest = ':' :: ':' :: after

theorem Ends.atColon {rest : List Char} (h : Ends rest) : AtColon rest := by
  rcases h with rfl | ⟨after, rfl⟩
  · exact atColon_nil
  · exact atColon_cons _

/-! ## One group after the other -/

theorem readGroups_of_ends {rest : List Char} (h : Ends rest) (limit : Nat) (first : Bool) :
    readGroups limit first rest = ⟨[], false, rest⟩ := by
  have hv4 {t : List Char} (ht : AtColon t) : readV4 t = none :=
    readV4_group (List.forall_mem_nil _) ht
  have hgroup {t : List Char} (ht : AtColon t) : readGroup t = none := by
    have hnil : t.takeWhile Digits.isHex = [] :=
      (takeWhile_dropWhile (List.forall_mem_nil _) ht.isHex_eq_false).1
    rw [readGroup, hnil]
    rfl
  cases limit with
  | zero => rfl
  | succ limit =>
      cases first with
      | true => simp [readGroups, hv4 h.atColon, hgroup h.atColon]
      | false =>
          rcases h with rfl | ⟨after, rfl⟩
          · rfl
          · simp [readGroups, skipColon, hv4 (atColon_cons after), hgroup (atColon_cons after)]

/-- The text behind the colon that stands in front of a group. -/
theorem behindColon (first : Bool) (t : List Char) :
    (if first then some (colon first ++ t) else skipColon (colon first ++ t)) = some t := by
  cases first <;> rfl

theorem readGroups_ipv4 {limit : Nat} (hlimit : limit ≠ 0) (first : Bool) {t rest : List Char}
    {x : Ipv4} (h : readV4 t = some (x, rest)) :
    readGroups (limit + 1) first (colon first ++ t) = ⟨x.toGroups, true, rest⟩ := by
  simp only [readGroups, behindColon, if_neg hlimit, h]

theorem readGroups_group (limit : Nat) (first : Bool) {t rest : List Char} {g : UInt16}
    (hv4 : readV4 t = none) (h : readGroup t = some (g, rest)) :
    readGroups (limit + 1) first (colon first ++ t) =
      { readGroups limit false rest with groups := g :: (readGroups limit false rest).groups } := by
  simp only [readGroups, behindColon, hv4, ite_self, h]

/-- The reader takes the groups of the grammar. -/
theorem readGroups_append {limit : Nat} {first embedded : Bool} {text rest : List Char}
    {gs : List UInt16} (h : AreGroups first embedded text gs) (hlimit : gs.length ≤ limit)
    (hrest : Ends rest) : readGroups limit first (text ++ rest) = ⟨gs, embedded, rest⟩ := by
  induction h generalizing limit with
  | none first => exact readGroups_of_ends hrest limit first
  | ipv4 first x =>
      match limit, hlimit with
      | limit + 1, hlimit =>
        have hpos : limit ≠ 0 := by
          rintro rfl
          have htwo : 2 ≤ 1 := hlimit
          omega
        rw [List.append_assoc]
        exact readGroups_ipv4 hpos first (readV4_v4Text x hrest.atColon.isDigit_eq_false)
  | group first hgroup hmore ih =>
      match limit, hlimit with
      | limit + 1, hlimit =>
        have hcolon := hmore.atColon hrest.atColon
        rw [List.append_assoc, List.append_assoc,
          readGroups_group limit first (readV4_group hgroup.hex hcolon)
            (readGroup_append hgroup hcolon),
          ih (Nat.le_of_succ_le_succ hlimit)]

theorem behindColon_eq_some {first : Bool} {s t : List Char}
    (h : (if first then some s else skipColon s) = some t) : s = colon first ++ t := by
  cases first with
  | true => exact Option.some.inj h
  | false =>
      have hskip : skipColon s = some t := h
      unfold skipColon at hskip
      split at hskip
      · rw [Option.some.inj hskip]
        rfl
      · cases hskip

/-- Whether groups that were read are groups of the grammar in front of what follows them. -/
def Groups.AreTaken (r : Groups) (limit : Nat) (first : Bool) (s : List Char) : Prop :=
  ∃ text, s = text ++ r.rest ∧ AreGroups first r.embedded text r.groups ∧ r.groups.length ≤ limit

theorem Groups.areTaken_none (limit : Nat) (first : Bool) (s : List Char) :
    Groups.AreTaken ⟨[], false, s⟩ limit first s :=
  ⟨[], rfl, .none first, Nat.zero_le limit⟩

/-- What the reader took are groups of the grammar. -/
theorem areTaken_readGroups (limit : Nat) (first : Bool) (s : List Char) :
    (readGroups limit first s).AreTaken limit first s := by
  induction limit generalizing first s with
  | zero => exact Groups.areTaken_none 0 first s
  | succ limit ih =>
      unfold readGroups
      split
      · exact Groups.areTaken_none _ first s
      · next t hskip =>
        obtain rfl := behindColon_eq_some hskip
        split
        · next x rest hx =>
          have hlimit : limit ≠ 0 := fun h => by rw [if_pos h] at hx; cases hx
          rw [if_neg hlimit] at hx
          obtain rfl := v4Text_of_readV4 hx
          have htwo : x.toGroups.length ≤ limit + 1 := by
            show 2 ≤ limit + 1
            omega
          exact ⟨colon first ++ v4Text x, (List.append_assoc ..).symm, .ipv4 first x, htwo⟩
        · split
          · exact Groups.areTaken_none _ first _
          · next g rest hgroup =>
            obtain ⟨text, rfl, htext⟩ := isGroup_of_readGroup hgroup
            obtain ⟨more, hrest, hmore, hlength⟩ := ih false rest
            refine ⟨colon first ++ (text ++ more), ?_, .group first htext hmore,
              Nat.succ_le_succ hlength⟩
            rw [List.append_assoc, List.append_assoc, ← hrest]

/-! ## IPv6 addresses -/

theorem ofGroups_groups (x : Ipv6) : ofGroups x.groups = some x := dif_pos x.length_eq

theorem groups_of_ofGroups {gs : List UInt16} {x : Ipv6} (h : ofGroups gs = some x) :
    x.groups = gs := by
  unfold ofGroups at h
  split at h
  · rw [← Option.some.inj h]
  · cases h

/-- An address that was read to the end of a text is one of the grammar. -/
theorem isV6_of_readV6 {s : List Char} {x : Ipv6} (h : readV6 s = some (x, [])) : IsV6 s x := by
  obtain ⟨before, hbefore, hhead, hlength⟩ := areTaken_readGroups 8 true s
  simp only [readV6] at h
  generalize readGroups 8 true s = head at *
  split at h
  · obtain ⟨y, hy, hpair⟩ := Option.map_eq_some_iff.mp h
    obtain ⟨rfl, hrest⟩ := Prod.mk.inj hpair
    rw [hrest, List.append_nil] at hbefore
    rw [hbefore]
    exact .full (groups_of_ofGroups hy ▸ hhead)
  · next height =>
    split at h
    · cases h
    · next hembedded =>
      split at h
      · next after hcolons =>
        obtain ⟨text, hafter, htail, hshort⟩ :=
          areTaken_readGroups (7 - head.groups.length) true after
        generalize readGroups (7 - head.groups.length) true after = tail at *
        obtain ⟨y, hy, hpair⟩ := Option.map_eq_some_iff.mp h
        obtain ⟨rfl, hrest⟩ := Prod.mk.inj hpair
        rw [hrest, List.append_nil] at hafter
        rw [hbefore, hcolons, hafter]
        rw [Bool.not_eq_true] at hembedded
        exact .short (hembedded ▸ hhead) htail (by omega) (groups_of_ofGroups hy)
      · cases h

theorem readV6_of_isV6 {s : List Char} {x : Ipv6} (h : IsV6 s x) : readV6 s = some (x, []) := by
  cases h with
  | full h =>
      have hread := readGroups_append h (Nat.le_of_eq x.length_eq) (.inl rfl)
      rw [List.append_nil] at hread
      simp only [readV6, hread, x.length_eq, if_true, ofGroups_groups, Option.map_some]
  | @short embedded before after head tail _ hhead htail hlength hgroups =>
      have hread : readGroups 8 true (before ++ ':' :: ':' :: after) =
          ⟨head, false, ':' :: ':' :: after⟩ :=
        readGroups_append hhead (by omega) (.inr ⟨after, rfl⟩)
      have hafter : readGroups (7 - head.length) true (after ++ []) = ⟨tail, embedded, []⟩ :=
        readGroups_append htail (by omega) (.inl rfl)
      have height : ¬head.length = 8 := by omega
      rw [List.append_nil] at hafter
      simp only [readV6, hread, hafter, if_neg height, ← hgroups, ofGroups_groups, Option.map_some,
        Bool.false_eq_true, if_false]

/-- No IPv6 address starts with an IPv4 one. -/
theorem readV6_of_readV4 {s rest : List Char} {x : Ipv4} (h : readV4 s = some (x, rest)) :
    readV6 s = none := by
  have hread : readGroups 8 true s = ⟨x.toGroups, true, rest⟩ :=
    readGroups_ipv4 (show 7 ≠ 0 by decide) true h
  rw [readV6, hread]
  rfl

end Address

namespace IpAddress

open Address

theorem written_of_parse? {text : String} {ip : IpAddress} (h : parse? text = some ip) :
    ip.Written text := by
  simp only [parse?] at h
  split at h
  · next x rest hx =>
    split at h
    · next hrest =>
      obtain rfl := Option.some.inj h
      have htext := v4Text_of_readV4 hx
      rw [List.isEmpty_iff.mp hrest, List.append_nil, ← toList_text] at htext
      exact .v4 (String.toList_inj.mp htext)
    · cases h
  · split at h
    · next x rest hx =>
      split at h
      · next hrest =>
        obtain rfl := Option.some.inj h
        exact .v6 (isV6_of_readV6 (List.isEmpty_iff.mp hrest ▸ hx))
      · cases h
    · cases h

theorem parse?_of_written {text : String} {ip : IpAddress} (h : ip.Written text) :
    parse? text = some ip := by
  cases h with
  | @v4 x _ h =>
      have hread := readV4_v4Text x atColon_nil.isDigit_eq_false
      rw [List.append_nil, ← toList_text] at hread
      rw [h, parse?, hread]
      rfl
  | v6 h =>
      have hread := readV6_of_isV6 h
      have hnone : readV4 text.toList = none :=
        Option.eq_none_iff_forall_ne_some.mpr fun ⟨_, _⟩ hv4 => by
          rw [readV6_of_readV4 hv4] at hread
          cases hread
      rw [parse?, hnone, hread]
      rfl

/-- A text is read as an address exactly if the address is written like that. -/
theorem parse?_eq_some {text : String} {ip : IpAddress} :
    parse? text = some ip ↔ ip.Written text :=
  ⟨written_of_parse?, parse?_of_written⟩

theorem parse?_eq_none {text : String} :
    parse? text = none ↔ ∀ ip : IpAddress, ¬ ip.Written text := by
  simp only [Option.eq_none_iff_forall_ne_some, ne_eq, parse?_eq_some]

/-- A text is the form of one address at most. -/
theorem Written.unique {text : String} {ip ip' : IpAddress} (h : ip.Written text)
    (h' : ip'.Written text) : ip = ip' :=
  Option.some.inj ((parse?_of_written h).symm.trans (parse?_of_written h'))

end IpAddress

end RemoteInput
