import Mathlib.Data.List.Induction
import RemoteInput.Keyboard
import RemoteInput.Proofs.Schema
import RemoteInput.Proofs.Sharing

/-!
# Sets of modifiers under every history

Two registers hold sets of modifiers.  A modifier is added to one, the modifiers of a list
are collected into one, one is copied from the other, and one is cleared.  `Put` tells from
the steps alone which modifiers a register has: those that were named for it since it was
last replaced, and those that came with the copy that replaced it.

One step keeps `Put` and the members of the registers together (`contains_apply` against
`put_concat`), so a run does (`contains_run`).  What the other views of a set show, its mask,
its size, its list and its flags, is told from its members alone (`shows_contains`).
-/

namespace RemoteInput.Modifiers

/-! ## Registers -/

/-- A place for a set. -/
inductive Register where
  | first
  | second
  deriving DecidableEq

/-- The other one of the two. -/
def Register.other : Register → Register
  | first => second
  | second => first

/-- What is done to a register. -/
inductive Step where
  /-- A modifier is added. -/
  | insert (r : Register) (m : Modifier)
  /-- The set is replaced by that of a list. -/
  | collect (r : Register) (ms : List Modifier)
  /-- The set is replaced by that of the other register. -/
  | copy (r : Register)
  /-- The set is replaced by the empty one. -/
  | clear (r : Register)

/-- The sets that the registers hold. -/
abbrev Registers := Register → Modifiers

/-- The registers after a step. -/
def Step.apply (held : Registers) : Step → Registers
  | insert r m => Function.update held r ((held r).insert m)
  | collect r ms => Function.update held r (ofList ms)
  | copy r => Function.update held r (held r.other)
  | clear r => Function.update held r empty

/-- The registers after steps that begin with empty ones. -/
def run (steps : List Step) : Registers := steps.foldl Step.apply fun _ => empty

/-! ## Histories -/

/-- Whether a step replaces what a register holds. -/
def Step.Replaces : Step → Register → Prop
  | insert _ _, _ => False
  | collect r _, r' | copy r, r' | clear r, r' => r = r'

/-- Whether a step names a modifier for a register. -/
inductive Step.Names : Step → Register → Modifier → Prop where
  | insert (r : Register) (m : Modifier) : Names (.insert r m) r m
  | collect {r : Register} {ms : List Modifier} {m : Modifier} (h : m ∈ ms) :
    Names (.collect r ms) r m

/-- Whether steps put a modifier into a register: it was named for it, or it came with a copy, and
the register was not replaced after that. -/
inductive Put : List Step → Register → Modifier → Prop where
  | named {before after : List Step} {step : Step} {r : Register} {m : Modifier}
    (h : step.Names r m) (hkept : ∀ later ∈ after, ¬ later.Replaces r) :
    Put (before ++ step :: after) r m
  | copied {before after : List Step} {r : Register} {m : Modifier} (h : Put before r.other m)
    (hkept : ∀ later ∈ after, ¬ later.Replaces r) : Put (before ++ .copy r :: after) r m

variable {steps : List Step} {step : Step} {r : Register} {m : Modifier}

theorem not_put_nil : ¬ Put [] r m := by
  intro h
  generalize hsteps : ([] : List Step) = steps at h
  cases h <;> simp at hsteps

theorem Put.concat (h : Put steps r m) (hkept : ¬ step.Replaces r) : Put (steps ++ [step]) r m := by
  cases h with
  | named h hafter =>
      rw [List.append_assoc, List.cons_append]
      exact .named h (by simpa [or_imp, forall_and] using ⟨hafter, hkept⟩)
  | copied h hafter =>
      rw [List.append_assoc, List.cons_append]
      exact .copied h (by simpa [or_imp, forall_and] using ⟨hafter, hkept⟩)

/-- An element of a list with one more at its end is that one or an element of the list. -/
theorem concat_eq_split {α : Type} {xs before after : List α} {x y : α}
    (h : xs ++ [x] = before ++ y :: after) :
    (xs = before ∧ x = y ∧ after = []) ∨
      ∃ rest, after = rest ++ [x] ∧ xs = before ++ y :: rest := by
  rcases List.eq_nil_or_concat after with rfl | ⟨rest, last, rfl⟩
  · obtain ⟨hxs, hx⟩ := List.append_inj' h rfl
    exact .inl ⟨hxs, List.singleton_inj.mp hx, rfl⟩
  · rw [List.concat_eq_append, ← List.cons_append, ← List.append_assoc] at h
    obtain ⟨hxs, hx⟩ := List.append_inj' h rfl
    rw [List.concat_eq_append, List.singleton_inj.mp hx]
    exact .inr ⟨rest, rfl, hxs⟩

/-- After one more step a register has what the step names for it, what the step copies, and what
it had unless the step replaces it. -/
theorem put_concat : Put (steps ++ [step]) r m ↔
    step.Names r m ∨ (step = .copy r ∧ Put steps r.other m) ∨
      (¬ step.Replaces r ∧ Put steps r m) := by
  constructor
  · intro h
    generalize hsteps : steps ++ [step] = all at h
    -- The step that counts is the last one, or the last one left the register as it was.
    cases h with
    | named h hafter =>
        obtain ⟨rfl, rfl, rfl⟩ | ⟨rest, rfl, rfl⟩ := concat_eq_split hsteps
        · exact .inl h
        · exact .inr (.inr ⟨hafter step (by simp), .named h fun s hs => hafter s (by simp [hs])⟩)
    | copied h hafter =>
        obtain ⟨rfl, rfl, rfl⟩ | ⟨rest, rfl, rfl⟩ := concat_eq_split hsteps
        · exact .inr (.inl ⟨rfl, h⟩)
        · exact .inr (.inr ⟨hafter step (by simp), .copied h fun s hs => hafter s (by simp [hs])⟩)
  · rintro (h | ⟨rfl, h⟩ | ⟨hkept, h⟩)
    · exact .named h (by simp)
    · exact .copied h (by simp)
    · exact h.concat hkept

/-! ## Members of the registers -/

theorem not_contains_empty (m : Modifier) : ¬ empty.contains m = true := by
  cases m <;> decide

@[simp] theorem names_insert {own : Register} {m' : Modifier} :
    (Step.insert own m').Names r m ↔ own = r ∧ m = m' := by
  constructor
  · rintro ⟨⟩
    exact ⟨rfl, rfl⟩
  · rintro ⟨rfl, rfl⟩
    exact .insert own m

@[simp] theorem names_collect {own : Register} {ms : List Modifier} :
    (Step.collect own ms).Names r m ↔ own = r ∧ m ∈ ms := by
  constructor
  · rintro ⟨⟩
    exact ⟨rfl, ‹m ∈ ms›⟩
  · rintro ⟨rfl, h⟩
    exact .collect h

@[simp] theorem not_names_copy {own : Register} : ¬ (Step.copy own).Names r m := nofun

@[simp] theorem not_names_clear {own : Register} : ¬ (Step.clear own).Names r m := nofun

/-- What a register has after a step. -/
theorem contains_apply {held : Registers} : (step.apply held r).contains m = true ↔
    step.Names r m ∨ (step = .copy r ∧ (held r.other).contains m = true) ∨
      (¬ step.Replaces r ∧ (held r).contains m = true) := by
  cases step with
  | insert own m' =>
      by_cases h : own = r
      · subst h
        simp [Step.apply, Step.Replaces, contains_insert, or_comm]
      · simp [Step.apply, Step.Replaces, h, Ne.symm h]
  | collect own ms =>
      by_cases h : own = r
      · subst h
        simp [Step.apply, Step.Replaces, contains_ofList]
      · simp [Step.apply, Step.Replaces, h, Ne.symm h]
  | copy own =>
      by_cases h : own = r
      · subst h
        simp [Step.apply, Step.Replaces]
      · simp [Step.apply, Step.Replaces, h, Ne.symm h]
  | clear own =>
      by_cases h : own = r
      · subst h
        simp [Step.apply, Step.Replaces, not_contains_empty]
      · simp [Step.apply, Step.Replaces, h, Ne.symm h]

/-- A register has exactly the modifiers that the steps put into it. -/
theorem contains_run (steps : List Step) (r : Register) (m : Modifier) :
    (run steps r).contains m = true ↔ Put steps r m := by
  induction steps using List.reverseRecOn generalizing r with
  | nil => simpa [run, not_put_nil] using not_contains_empty m
  | append_singleton steps step ih =>
      rw [put_concat, ← ih, ← ih, run, List.foldl_append]
      exact contains_apply

/-! ## The views of a set -/

/-- Whether a set shows certain members in all its views: the question for one of them, the bits of
its mask, its list, its size, the question for none, and its flags. -/
structure Shows (set : Modifiers) (members : Modifier → Prop) : Prop where
  contains_iff : ∀ m, set.contains m = true ↔ members m
  /-- The bits belong to the modifiers in canonical order, and there are no others. -/
  testBit_mask : ∀ i, set.mask.toNat.testBit i = true ↔
    ∃ m, [Modifier.cmd, .shift, .ctrl, .alt][i]? = some m ∧ members m
  /-- Each member is listed once, in canonical order. -/
  sublist_toList : set.toList.Sublist [.cmd, .shift, .ctrl, .alt]
  mem_toList : ∀ m, m ∈ set.toList ↔ members m
  size_eq : set.size = set.toList.length
  isEmpty_iff : set.isEmpty = true ↔ ∀ m, ¬ members m
  /-- The flags are those of the members, put together bit by bit. -/
  testBit_flags : ∀ i, (Keyboard.flags set).toNat.testBit i = true ↔
    ∃ m, members m ∧ (Keyboard.flag m).toNat.testBit i = true

theorem testBit_mask (set : Modifiers) (i : Nat) : set.mask.toNat.testBit i = true ↔
    ∃ m, [Modifier.cmd, .shift, .ctrl, .alt][i]? = some m ∧ set.contains m = true := by
  by_cases hi : i < 4
  · revert set
    refine forall_of_masks ?_
    revert i
    decide
  · have hmask : set.mask.toNat < 2 ^ i :=
      (UInt8.lt_iff_toNat_lt.mp set.mask_lt).trans_le
        (Nat.pow_le_pow_right (by decide) (Nat.le_of_not_lt hi) : 2 ^ 4 ≤ 2 ^ i)
    have hnone : [Modifier.cmd, .shift, .ctrl, .alt][i]? = none :=
      List.getElem?_eq_none (Nat.le_of_not_lt hi)
    simp [Nat.testBit_lt_two_pow hmask, hnone]

theorem size_eq_length (set : Modifiers) : set.size = set.toList.length := by
  revert set
  exact forall_of_masks (by decide)

theorem isEmpty_iff (set : Modifiers) : set.isEmpty = true ↔ ∀ m, ¬ set.contains m = true := by
  have hnil : set.isEmpty = true ↔ set.toList = [] := by
    revert set
    exact forall_of_masks (by decide)
  rw [hnil, List.eq_nil_iff_forall_not_mem]
  exact forall_congr' fun m => not_congr (set.lists_toList.mem_iff m)

/-! ## Flags -/

/-- The place of the bit of a modifier among the flags. -/
def flagBit : Modifier → Nat
  | .shift => 17
  | .ctrl => 18
  | .alt => 19
  | .cmd => 20

theorem testBit_flag (m : Modifier) (i : Nat) :
    (Keyboard.flag m).toNat.testBit i = true ↔ flagBit m = i := by
  have hflag : (Keyboard.flag m).toNat = 2 ^ flagBit m := by cases m <;> rfl
  rw [hflag, Nat.testBit_two_pow, decide_eq_true_iff]

theorem flagBit_injective : Function.Injective flagBit := by
  intro m m' h
  revert h
  cases m <;> cases m' <;> simp [flagBit]

/-- A bit is set in words that are put together if it is set in one of them. -/
theorem testBit_foldl_or (words : List UInt64) (word : UInt64) (i : Nat) :
    (words.foldl (· ||| ·) word).toNat.testBit i = true ↔
      word.toNat.testBit i = true ∨ ∃ w ∈ words, w.toNat.testBit i = true := by
  induction words generalizing word with
  | nil => simp
  | cons w words ih => simp [ih, or_assoc]

theorem testBit_flags (set : Modifiers) (i : Nat) :
    (Keyboard.flags set).toNat.testBit i = true ↔
      ∃ m, set.contains m = true ∧ (Keyboard.flag m).toNat.testBit i = true := by
  rw [Keyboard.flags, testBit_foldl_or]
  simp [set.lists_toList.mem_iff]

/-- Sets with the same flags are equal. -/
theorem flags_injective : Function.Injective Keyboard.flags := by
  have hcontains : ∀ (set : Modifiers) (m : Modifier), set.contains m = true ↔
      (Keyboard.flags set).toNat.testBit (flagBit m) = true := by
    intro set m
    simp only [testBit_flags, testBit_flag, flagBit_injective.eq_iff]
    simp
  intro set set' h
  exact eq_of_contains fun m => by rw [hcontains, hcontains, h]

/-- Every view of a set shows the members that it has. -/
theorem shows_contains (set : Modifiers) : set.Shows fun m => set.contains m = true where
  contains_iff _ := Iff.rfl
  testBit_mask := testBit_mask set
  sublist_toList := set.lists_toList.sublist
  mem_toList := set.lists_toList.mem_iff
  size_eq := size_eq_length set
  isEmpty_iff := isEmpty_iff set
  testBit_flags := testBit_flags set

/-! ## Registers as sets -/

/-- After any steps each register is the set of the modifiers that the steps put into it, in all its
views.  Registers after steps are equal if they have the same members, and so are their flags. -/
theorem run_shows (steps : List Step) (r : Register) :
    (run steps r).Shows (Put steps r) ∧ Function.Injective Keyboard.flag ∧
      ∀ (steps' : List Step) (r' : Register),
        (run steps r = run steps' r' ↔ ∀ m, Put steps r m ↔ Put steps' r' m) ∧
        (Keyboard.flags (run steps r) = Keyboard.flags (run steps' r') ↔
          ∀ m, Put steps r m ↔ Put steps' r' m) := by
  have hput : (fun m => (run steps r).contains m = true) = Put steps r :=
    funext fun m => propext (contains_run steps r m)
  have hinjective : Function.Injective Keyboard.flag := by
    intro m m' h
    have hbit := (testBit_flag m (flagBit m)).mpr rfl
    rw [h, testBit_flag] at hbit
    exact (flagBit_injective hbit).symm
  refine ⟨hput ▸ shows_contains (run steps r), hinjective, fun steps' r' => ?_⟩
  have heq : run steps r = run steps' r' ↔ ∀ m, Put steps r m ↔ Put steps' r' m := by
    simp only [← contains_run]
    exact ⟨fun h m => by rw [h], eq_of_contains⟩
  exact ⟨heq, flags_injective.eq_iff.trans heq⟩

end RemoteInput.Modifiers
