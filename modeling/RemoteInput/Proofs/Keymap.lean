import Mathlib.Data.List.Forall2
import Mathlib.Data.List.Lattice
import Mathlib.Data.List.Nodup
import Mathlib.Data.List.Pairwise
import RemoteInput.Injection.Strokes
import RemoteInput.Proofs.Basics

/-!
# Names of keys and their codes

A name is looked up in upper case, so names that differ in the case of ASCII
letters only are the same name (`asciiUpper_eq_iff`), and what is known are the
names of the table up to that difference (`code?_isSome_iff`).  All of these are
ASCII texts, and so are the texts that differ from them in case only.

The table lists each name once (`nodup_names`), so a name has the code of its row
(`code?_eq_some_iff`).  It lists each code once as well (`nodup_codes`).  So two
names have the same code if they are in the same row (`same_code_iff`), and then they
are equal or among the documented `aliases` (`same_row_iff`).

The code of the key that opens the power dialog is in no row.
-/

namespace RemoteInput

/-! ## Case -/

/-- Whether two characters are the same, or the same ASCII letter in two cases. -/
def SameLetter (c d : Char) : Prop :=
  c = d ∨ ∃ i < 26, (c.toNat = 0x41 + i ∧ d.toNat = 0x61 + i) ∨
    (c.toNat = 0x61 + i ∧ d.toNat = 0x41 + i)

/-- Whether two texts are the same up to the case of their ASCII letters. -/
def EqualButCase (a b : String) : Prop := List.Forall₂ SameLetter a.toList b.toList

theorem toNat_toUpper (c : Char) :
    c.toUpper.toNat = if 0x61 ≤ c.toNat ∧ c.toNat < 0x61 + 26 then c.toNat - 0x20 else c.toNat := by
  have hlower : ('a'.val ≤ c.val ∧ c.val ≤ 'z'.val) ↔ 0x61 ≤ c.toNat ∧ c.toNat < 0x61 + 26 := by
    rw [UInt32.le_iff_toNat_le, UInt32.le_iff_toNat_le]
    exact and_congr_right' Nat.lt_succ_iff.symm
  unfold Char.toUpper
  split
  next h =>
      have hrange := hlower.mp h
      rw [if_pos hrange]
      -- the offset to the upper case is negative, so it wraps around
      show (c.val + ('A'.val - 'a'.val)).toNat = c.val.toNat - 0x20
      have hoffset : ('A'.val - 'a'.val).toNat = 2 ^ 32 - 0x20 := rfl
      have hcode : c.val.toNat = c.toNat := rfl
      rw [UInt32.toNat_add, hoffset]
      omega
  next h => rw [if_neg (mt hlower.mpr h)]

theorem toUpper_eq_iff {c d : Char} : c.toUpper = d.toUpper ↔ SameLetter c d := by
  rw [SameLetter, ← Char.toNat_inj, ← Char.toNat_inj, toNat_toUpper, toNat_toUpper]
  constructor
  · intro h
    by_cases hsame : c.toNat = d.toNat
    · exact .inl hsame
    · refine .inr ⟨min c.toNat d.toNat - 0x41, ?_⟩
      split at h <;> split at h <;> omega
  · rintro (h | ⟨i, hi, ⟨hc, hd⟩ | ⟨hc, hd⟩⟩)
    · rw [h]
    · rw [hc, hd]
      split <;> split <;> omega
    · rw [hc, hd]
      split <;> split <;> omega

/-- Texts are the same in upper case if they differ in case only. -/
theorem asciiUpper_eq_iff {a b : String} : asciiUpper a = asciiUpper b ↔ EqualButCase a b := by
  rw [asciiUpper, asciiUpper, String.ofList_inj, EqualButCase, ← List.forall₂_eq_eq_eq,
    List.forall₂_map_left_iff, List.forall₂_map_right_iff]
  simp only [toUpper_eq_iff]

/-- A text that differs in case only from an ASCII text is one as well. -/
theorem EqualButCase.ascii {a b : String} (h : EqualButCase a b)
    (hb : ∀ d ∈ b.toList, d.toNat < 0x80) : ∀ c ∈ a.toList, c.toNat < 0x80 := by
  unfold EqualButCase at h
  generalize a.toList = cs at h ⊢
  generalize b.toList = ds at h hb
  induction h with
  | nil => exact hb
  | @cons c d cs ds hfirst _ ih =>
      obtain ⟨hd, hds⟩ := List.forall_mem_cons.mp hb
      refine List.forall_mem_cons.mpr ⟨?_, ih hds⟩
      rcases hfirst with rfl | ⟨i, hi, ⟨hc, -⟩ | ⟨hc, -⟩⟩
      · exact hd
      · omega
      · omega

namespace Keyboard

/-! ## The table -/

theorem nodup_names : (table.flatMap Key.names).Nodup := by decide +kernel

/-- A name is in one row at most. -/
theorem row_unique {row row' : Key} (hrow : row ∈ table) (hrow' : row' ∈ table) {name : String}
    (hname : name ∈ row.names) (hname' : name ∈ row'.names) : row = row' := by
  have hsymm : Std.Symm (Function.onFun List.Disjoint Key.names) :=
    ⟨fun _ _ h => List.Disjoint.symm h⟩
  obtain ⟨-, hpairwise⟩ := List.nodup_flatMap.mp nodup_names
  by_contra hne
  exact hpairwise.forall hrow hrow' hne hname hname'

theorem nodup_codes : (table.map Key.code).Nodup := by decide +kernel

/-- A code is in one row at most. -/
theorem row_eq_of_code {row row' : Key} (hrow : row ∈ table) (hrow' : row' ∈ table)
    (h : row.code = row'.code) : row = row' := List.inj_on_of_nodup_map nodup_codes hrow hrow' h

theorem code?_eq_none {name : String} :
    code? name = none ↔ ∀ row ∈ table, asciiUpper name ∉ row.names := by
  simp [code?, List.find?_eq_none]

theorem code?_eq_some {row : Key} (hrow : row ∈ table) {name : String}
    (hname : asciiUpper name ∈ row.names) : code? name = some row.code := by
  cases hfind : table.find? fun row => row.names.contains (asciiUpper name) with
  | none =>
      have hnot := List.find?_eq_none.mp hfind row hrow
      exact absurd (List.contains_iff_mem.mpr hname) hnot
  | some row' =>
      have hfound : row'.names.contains (asciiUpper name) = true := by
        simpa using List.find?_some hfind
      have hname' := List.contains_iff_mem.mp hfound
      obtain rfl := row_unique hrow (List.mem_of_find?_eq_some hfind) hname hname'
      rw [code?, hfind]
      rfl

theorem code?_eq_some_iff {name : String} {code : UInt16} :
    code? name = some code ↔ ∃ row ∈ table, asciiUpper name ∈ row.names ∧ row.code = code := by
  constructor
  · intro h
    by_cases hnone : ∀ row ∈ table, asciiUpper name ∉ row.names
    · rw [code?_eq_none.mpr hnone] at h
      cases h
    · push Not at hnone
      obtain ⟨row, hrow, hname⟩ := hnone
      rw [code?_eq_some hrow hname] at h
      exact ⟨row, hrow, hname, Option.some.inj h⟩
  · rintro ⟨row, hrow, hname, rfl⟩
    exact code?_eq_some hrow hname

/-! ## Known names -/

/-- Whether a name is one of the table up to case. -/
def Known (name : String) : Prop := ∃ row ∈ table, ∃ known ∈ row.names, EqualButCase name known

theorem asciiUpper_names : ∀ row ∈ table, ∀ name ∈ row.names, asciiUpper name = name := by
  decide +kernel

theorem known_iff {name : String} : Known name ↔ ∃ row ∈ table, asciiUpper name ∈ row.names := by
  refine exists_congr fun row => and_congr_right fun hrow => ?_
  constructor
  · rintro ⟨known, hknown, hcase⟩
    rwa [asciiUpper_eq_iff.mpr hcase, asciiUpper_names row hrow known hknown]
  · intro hname
    exact ⟨asciiUpper name, hname,
      asciiUpper_eq_iff.mp (asciiUpper_names row hrow _ hname).symm⟩

theorem code?_isSome_iff {name : String} : (code? name).isSome = true ↔ Known name := by
  rw [known_iff, Option.isSome_iff_ne_none, Ne, code?_eq_none]
  push Not
  rfl

theorem ascii_names : ∀ row ∈ table, ∀ name ∈ row.names, ∀ c ∈ name.toList, c.toNat < 0x80 := by
  -- a decision over the characters of all names nests too deep unless it is one Boolean
  have hall : (table.all fun row => row.names.all fun name =>
      name.toList.all fun c => decide (c.toNat < 0x80)) = true := by decide +kernel
  simpa only [List.all_eq_true, decide_eq_true_eq] using hall

/-- Every known name is an ASCII text. -/
theorem Known.ascii {name : String} (h : Known name) : ∀ c ∈ name.toList, c.toNat < 0x80 := by
  obtain ⟨row, hrow, known, hknown, hcase⟩ := h
  exact hcase.ascii (ascii_names row hrow known hknown)

/-! ## Names of one key -/

/-- The names of one key, where it has several: a punctuation character and its name, and three keys
that have two names. -/
def aliases : List (List String) :=
  [ ["=", "EQUAL"], ["-", "MINUS"], ["]", "RIGHT_BRACKET"], ["[", "LEFT_BRACKET"], ["'", "QUOTE"],
    [";", "SEMICOLON"], ["\\", "BACKSLASH"], [",", "COMMA"], ["/", "SLASH"], [".", "PERIOD"],
    ["`", "GRAVE"], ["ENTER", "RETURN"], ["BACKSPACE", "DELETE"], ["ESCAPE", "ESC"] ]

theorem exists_row_of_alias : ∀ names ∈ aliases, ∃ row ∈ table, row.names = names := by
  decide +kernel

theorem eq_or_alias : ∀ row ∈ table, ∀ name ∈ row.names, ∀ name' ∈ row.names,
    name = name' ∨ row.names ∈ aliases := by
  decide +kernel

/-- Names are in one row if they are equal or aliases of each other. -/
theorem same_row_iff {name name' : String} :
    (∃ row ∈ table, name ∈ row.names ∧ name' ∈ row.names) ↔
      (∃ row ∈ table, name ∈ row.names) ∧ (∃ row ∈ table, name' ∈ row.names) ∧
        (name = name' ∨ ∃ names ∈ aliases, name ∈ names ∧ name' ∈ names) := by
  constructor
  · rintro ⟨row, hrow, hname, hname'⟩
    refine ⟨⟨row, hrow, hname⟩, ⟨row, hrow, hname'⟩, ?_⟩
    exact (eq_or_alias row hrow name hname name' hname').imp_right
      fun halias => ⟨row.names, halias, hname, hname'⟩
  · rintro ⟨⟨row, hrow, hname⟩, -, rfl | ⟨names, halias, hmem, hmem'⟩⟩
    · exact ⟨row, hrow, hname, hname⟩
    · obtain ⟨row', hrow', rfl⟩ := exists_row_of_alias names halias
      exact ⟨row', hrow', hmem, hmem'⟩

/-- Names have the same code if they are in one row. -/
theorem same_code_iff {a b : String} :
    (∃ code, code? a = some code ∧ code? b = some code) ↔
      ∃ row ∈ table, asciiUpper a ∈ row.names ∧ asciiUpper b ∈ row.names := by
  constructor
  · rintro ⟨code, ha, hb⟩
    obtain ⟨row, hrow, hname, hcode⟩ := code?_eq_some_iff.mp ha
    obtain ⟨row', hrow', hname', hcode'⟩ := code?_eq_some_iff.mp hb
    obtain rfl := row_eq_of_code hrow hrow' (hcode.trans hcode'.symm)
    exact ⟨row, hrow, hname, hname'⟩
  · rintro ⟨row, hrow, hname, hname'⟩
    exact ⟨row.code, code?_eq_some hrow hname, code?_eq_some hrow hname'⟩

/-! ## The power key -/

/-- The code of the power key is in no row. -/
theorem code?_ne_powerKey (name : String) : code? name ≠ some powerKey := by
  intro h
  obtain ⟨row, hrow, -, hcode⟩ := code?_eq_some_iff.mp h
  have hother : ∀ row ∈ table, row.code ≠ powerKey := by decide +kernel
  exact hother row hrow hcode

end Keyboard

namespace Injection

theorem keyOf_eq_ok {name : String} {code : UInt16} :
    keyOf name = .ok code ↔ Keyboard.code? name = some code := by
  unfold keyOf
  cases Keyboard.code? name <;> simp

theorem code_of_mem_tap {stroke : Stroke} {code : UInt16} {flags : UInt64}
    (h : stroke ∈ tap code flags) : stroke.code = code := by
  rcases List.mem_pair.mp h with rfl | rfl
  · rfl
  · rfl

/-- The power dialog is opened by the command for it and by nothing else. -/
theorem opensPowerDialog_iff {input : Input} :
    OpensPowerDialog input ↔ input = .system .showPowerDialog := by
  constructor
  · rintro ⟨all, hall, stroke, hstroke, hcode⟩
    cases input with
    | keyboard key action modifiers =>
        obtain ⟨code, hkey, hdone⟩ := bind_eq_ok.mp hall
        cases hdone
        obtain rfl := List.mem_singleton.mp hstroke
        obtain rfl : code = Keyboard.powerKey := hcode
        exact absurd (keyOf_eq_ok.mp hkey) (Keyboard.code?_ne_powerKey key)
    | trackpad action dx dy =>
        cases hall
        cases hstroke
    | system command =>
        cases command with
        | lockScreen =>
            obtain ⟨code, hkey, hdone⟩ := bind_eq_ok.mp hall
            cases hdone
            obtain rfl := (code_of_mem_tap hstroke).symm.trans hcode
            exact absurd (keyOf_eq_ok.mp hkey) (Keyboard.code?_ne_powerKey "Q")
        | sleep =>
            cases hall
            cases hstroke
        | showPowerDialog => rfl
  · rintro rfl
    exact ⟨tap Keyboard.powerKey 0, rfl, _, List.mem_cons_self, rfl⟩

end Injection

namespace Keyboard

/-- Two names have the same code if both are known and they are equal up to case, or aliases of each
other in upper case.  A name is known if it is one of the table up to case.  No text with a
character outside ASCII is, whatever another notion of case makes of it.  No name has the code of
the power key, `0x7F`, so the power dialog is opened by the command for it, and not by a key. -/
theorem keys_apart (a b : String) :
    ((∃ code, code? a = some code ∧ code? b = some code) ↔
        Known a ∧ Known b ∧
          (EqualButCase a b ∨ ∃ names ∈ aliases, asciiUpper a ∈ names ∧ asciiUpper b ∈ names)) ∧
      ((code? a).isSome = true ↔ Known a) ∧
      ((∃ c ∈ a.toList, 0x80 ≤ c.toNat) → code? a = none) ∧
      code? a ≠ some 0x7F ∧
      ∀ event : Event,
        Injection.OpensPowerDialog event.input ↔ event.input = .system .showPowerDialog := by
  refine ⟨?_, code?_isSome_iff, ?_, code?_ne_powerKey a,
    fun event => Injection.opensPowerDialog_iff⟩
  · rw [same_code_iff, same_row_iff, ← known_iff, ← known_iff, asciiUpper_eq_iff]
  · rintro ⟨c, hc, hcode⟩
    by_contra hsome
    have hknown : Known a := code?_isSome_iff.mp (Option.isSome_iff_ne_none.mpr hsome)
    have hascii := hknown.ascii c hc
    omega

/-- The long s is an `S` in upper case outside ASCII. -/
theorem keys_apart_escape :
    (∃ code, code? "esc" = some code ∧ code? "Escape" = some code) ∧
      (∃ c ∈ "eſc".toList, 0x80 ≤ c.toNat) ∧ code? "eſc" = none := by
  have hesc : Known "esc" := code?_isSome_iff.mp (by decide)
  have hescape : Known "Escape" := code?_isSome_iff.mp (by decide)
  have hlong : ∃ c ∈ "eſc".toList, 0x80 ≤ c.toNat := ⟨'ſ', by decide, by decide⟩
  exact ⟨(keys_apart "esc" "Escape").1.mpr ⟨hesc, hescape, .inr ⟨["ESCAPE", "ESC"], by decide⟩⟩,
    hlong, (keys_apart "eſc" "esc").2.2.1 hlong⟩

end Keyboard

end RemoteInput
