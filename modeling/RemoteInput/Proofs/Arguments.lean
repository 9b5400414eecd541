import Mathlib.Data.Option.Basic
import RemoteInput.CommandLine.Resolve
import RemoteInput.Proofs.Basics

/-!
# What a command line says

`CommandLine.Written` says which options arguments write down, with the text of
each.  It is a grammar and knows of no order of checks.  If arguments are taken
as options, they write some down, each of them once, and the value of an option
is what its text stands for (`readArguments_written`).

The environment has a text for some of the others.  So after it was asked an
option has the text of the arguments or else that of its variable
(`parse_written`).
-/

namespace RemoteInput

/-! ## Texts and values -/

/-- The type of the values of an option. -/
abbrev OptionName.type : OptionName → Type
  | .config | .bind => String
  | .port => UInt16
  | .maxLineBytes | .readTimeout => UInt64
  | .backend => BackendKind

/-- The argument that names an option. -/
def OptionName.flag : OptionName → String
  | .config => "--config"
  | .bind => "--bind"
  | .port => "--port"
  | .maxLineBytes => "--max-line-bytes"
  | .readTimeout => "--read-timeout-secs"
  | .backend => "--backend"

theorem OptionName.flag_eq (option : OptionName) : "--" ++ option.long = option.flag := by
  cases option <;> decide

/-- The value of an option that a text stands for. -/
def OptionName.parse? : (option : OptionName) → String → Option option.type
  | .config => fun text => if text.isEmpty then none else some text
  | .bind => some
  | .port => CommandLine.port?
  | .maxLineBytes => CommandLine.word?
  | .readTimeout => CommandLine.word?
  | .backend => BackendKind.ofName?

namespace Overrides

/-- The value of an option, if it is given. -/
def get (o : Overrides) : (option : OptionName) → Option option.type
  | .config => o.config
  | .bind => o.bindAddress
  | .port => o.port
  | .maxLineBytes => o.maxLineBytes
  | .readTimeout => o.readTimeoutSecs
  | .backend => o.backend

/-- Gives an option a value. -/
def put (o : Overrides) : (option : OptionName) → option.type → Overrides
  | .config, path => { o with config := some path }
  | .bind, address => { o with bindAddress := some address }
  | .port, n => { o with port := some n }
  | .maxLineBytes, n => { o with maxLineBytes := some n }
  | .readTimeout, n => { o with readTimeoutSecs := some n }
  | .backend, kind => { o with backend := some kind }

variable {o o' : Overrides} {option : OptionName} {text : String}

@[simp] theorem get_put_self (o : Overrides) (option : OptionName) (a : option.type) :
    (o.put option a).get option = some a := by
  cases option <;> rfl

theorem get_put_other {other : OptionName} (h : other ≠ option) (o : Overrides)
    (a : option.type) : (o.put option a).get other = o.get other := by
  revert h
  cases option <;> cases other <;> simp [get, put]

theorem has_eq (o : Overrides) (option : OptionName) : o.has option = (o.get option).isSome := by
  cases option <;> rfl

/-- Setting an option to a text gives it the value that the text stands for. -/
theorem set_eq_ok : o.set option text = .ok o' ↔
    ∃ a, option.parse? text = some a ∧ o' = o.put option a := by
  cases option with
  | config => by_cases h : text.isEmpty <;> simp [set, OptionName.parse?, put, h, eq_comm]
  | bind => simp [set, OptionName.parse?, put, eq_comm]
  | port => cases h : CommandLine.port? text <;> simp [set, OptionName.parse?, put, h, eq_comm]
  | maxLineBytes =>
      cases h : CommandLine.word? text <;> simp [set, OptionName.parse?, put, h, eq_comm]
  | readTimeout =>
      cases h : CommandLine.word? text <;> simp [set, OptionName.parse?, put, h, eq_comm]
  | backend =>
      cases h : BackendKind.ofName? text <;> simp [set, OptionName.parse?, put, h, eq_comm]

/-- Whether the options have the values of some texts, and those without a text are not given. -/
def Holds (o : Overrides) (texts : OptionName → Option String) : Prop :=
  ∀ option, Option.Rel (fun text a => option.parse? text = some a) (texts option) (o.get option)

theorem Holds.empty : Holds {} fun _ => none := by
  intro option
  cases option <;> exact .none

variable {texts : OptionName → Option String}

theorem Holds.has_eq (h : o.Holds texts) (option : OptionName) :
    o.has option = (texts option).isSome := by
  have hoption := h option
  rw [Overrides.has_eq]
  generalize texts option = text?, o.get option = value? at hoption ⊢
  cases hoption <;> rfl

/-- A path is the text that is given for it. -/
theorem Holds.config_eq (h : o.Holds texts) : o.config = texts .config := by
  have hrel : Option.Rel (fun text path => OptionName.config.parse? text = some path)
    (texts .config) o.config := h .config
  generalize texts .config = text?, o.config = path? at hrel ⊢
  cases hrel with
  | none => rfl
  | some hpath =>
      simp only [OptionName.parse?, Option.ite_none_left_eq_some, Option.some.injEq] at hpath
      rw [hpath.2]

/-- So is an address, whatever the text. -/
theorem Holds.bindAddress_eq (h : o.Holds texts) : o.bindAddress = texts .bind := by
  have hrel : Option.Rel (fun text address => some text = some address) (texts .bind)
    o.bindAddress := h .bind
  generalize texts .bind = text?, o.bindAddress = address? at hrel ⊢
  cases hrel with
  | none => rfl
  | some haddress => exact haddress.symm

theorem Holds.set (h : o.Holds texts) (hset : o.set option text = .ok o') :
    o'.Holds (Function.update texts option (some text)) := by
  obtain ⟨a, hparse, rfl⟩ := set_eq_ok.mp hset
  intro other
  by_cases hother : other = option
  · subst hother
    rw [Function.update_self, get_put_self]
    exact .some hparse
  · rw [Function.update_of_ne hother, get_put_other hother]
    exact h other

end Overrides

namespace CommandLine

/-! ## Arguments by their form -/

theorem eq_of_separator {argument : String} (h : Argument.ofText argument = .separator) :
    argument = "--" := by
  unfold Argument.ofText at h
  split at h
  next heq => exact String.toList_injective heq
  next => dsimp only at h; split at h <;> cases h
  next => cases h
  next => cases h

theorem eq_of_long {argument name : String} {value : Option String}
    (h : Argument.ofText argument = .long name value) :
    argument = value.elim ("--" ++ name) ("--" ++ name ++ "=" ++ ·) := by
  unfold Argument.ofText at h
  split at h
  next => cases h
  next cs _ heq =>
    have hcs := List.takeWhile_append_dropWhile (p := (· ≠ '=')) (l := cs)
    have hc := List.head?_dropWhile_not (· ≠ '=') cs
    dsimp only at h
    generalize cs.takeWhile (· ≠ '=') = name' at h hcs
    apply String.toList_injective
    split at h
    next hrest =>
      cases h
      rw [hrest, List.append_nil] at hcs
      simp [heq, hcs]
    next c value hrest =>
      cases h
      rw [hrest] at hc hcs
      obtain rfl : c = '=' := by simpa using hc
      simp [heq, hcs.symm]
  next => cases h
  next => cases h

theorem flag_of_ofLong? {name : String} {option : OptionName}
    (h : OptionName.ofLong? name = some option) : "--" ++ name = option.flag := by
  have hlong : option.long = name := beq_iff_eq.mp (List.find?_some h :)
  rw [← hlong, option.flag_eq]

/-! ## Arguments that write down options -/

/-- Which options arguments write down, each with the text of its value. -/
inductive Written : List String → List (OptionName × String) → Prop where
  | nil : Written [] []
  /-- No option follows two dashes. -/
  | separator : Written ["--"] []
  | apart (option : OptionName) {text : String} {rest : List String}
    {pairs : List (OptionName × String)} (hplain : Argument.ofText text = .plain)
    (h : Written rest pairs) :
    Written (option.flag :: text :: rest) ((option, text) :: pairs)
  | joined (option : OptionName) (text : String) {rest : List String}
    {pairs : List (OptionName × String)} (h : Written rest pairs) :
    Written ((option.flag ++ "=" ++ text) :: rest) ((option, text) :: pairs)

/-- The arguments that a pending option was read from. -/
inductive PendingFrom : Option Pending → List String → Prop where
  | none : PendingFrom none []
  | named (option : OptionName) : PendingFrom (some { option }) [option.flag]
  | valued (option : OptionName) {text : String} (hplain : Argument.ofText text = .plain) :
    PendingFrom (some ⟨option, some text⟩) [option.flag, text]

end CommandLine

/-- Whether options are those of some texts, each given once. -/
structure Overrides.Gives (o : Overrides) (pairs : List (OptionName × String)) : Prop where
  nodup : (pairs.map Prod.fst).Nodup
  holds : o.Holds fun option => pairs.lookup option

theorem Overrides.Gives.give {o o' : Overrides} {pairs : List (OptionName × String)}
    {option : OptionName} {text : String} (h : o.Gives pairs)
    (hgive : o.give option text = .ok o') : o'.Gives (pairs ++ [(option, text)]) := by
  unfold Overrides.give at hgive
  split at hgive
  next => cases hgive
  next hnot =>
    have hnone : pairs.lookup option = none := by
      rw [h.holds.has_eq] at hnot
      simpa only [Bool.not_eq_true, Option.isSome_eq_false_iff, Option.isNone_iff_eq_none]
        using hnot
    have htexts : Function.update (fun option => pairs.lookup option) option (some text) =
        fun other => (pairs ++ [(option, text)]).lookup other := by
      funext other
      by_cases hother : other = option
      · subst hother
        simp [List.lookup_append, hnone]
      · simp [List.lookup_append, List.lookup_cons, hother, beq_eq_false_iff_ne.mpr hother]
    exact ⟨nodup_names_append h.nodup hnone text, htexts ▸ h.holds.set hgive⟩

namespace CommandLine

variable {given given' o : Overrides} {pending : Option Pending} {before arguments : List String}
  {pairs : List (OptionName × String)}

/-- Taking the value of a pending option gives the option. -/
theorem flush_written (h : flush given pending = .ok given') (hpending : PendingFrom pending before)
    (hgiven : given.Gives pairs) :
    ∃ flushed, given'.Gives (pairs ++ flushed) ∧ ∀ {arguments more},
      Written arguments more → Written (before ++ arguments) (flushed ++ more) := by
  cases hpending with
  | none =>
      obtain rfl := Except.ok.inj h
      exact ⟨[], by simpa using hgiven, id⟩
  | named option => cases h
  | @valued option text hplain => exact ⟨[(option, text)], hgiven.give h, .apart option hplain⟩

/-- Arguments that are taken as options write them down. -/
theorem readArguments_written (h : readArguments given pending arguments = .ok o)
    (hpending : PendingFrom pending before) (hgiven : given.Gives pairs) :
    ∃ more, Written (before ++ arguments) more ∧ o.Gives (pairs ++ more) := by
  fun_induction readArguments given pending arguments generalizing before pairs with
  | case1 given pending =>
      obtain ⟨flushed, hflushed, hwritten⟩ := flush_written h hpending hgiven
      exact ⟨flushed ++ [], hwritten .nil, by simpa using hflushed⟩
  | case2 given pending argument hseparator =>
      obtain rfl := eq_of_separator hseparator
      obtain ⟨flushed, hflushed, hwritten⟩ := flush_written h hpending hgiven
      exact ⟨flushed ++ [], hwritten .separator, by simpa using hflushed⟩
  | case4 given pending argument rest name option hname hlong ih =>
      obtain rfl : argument = option.flag := (eq_of_long hlong).trans (flag_of_ofLong? hname)
      obtain ⟨given', hflush, h⟩ := bind_eq_ok.mp h
      obtain ⟨flushed, hflushed, hwritten⟩ := flush_written hflush hpending hgiven
      obtain ⟨more, hmore, hgives⟩ := ih given' h (.named option) hflushed
      exact ⟨flushed ++ more, hwritten hmore, by rwa [← List.append_assoc]⟩
  | case5 given pending argument rest name option text hname hlong ih =>
      obtain rfl : argument = option.flag ++ "=" ++ text :=
        flag_of_ofLong? hname ▸ eq_of_long hlong
      obtain ⟨given', hflush, h⟩ := bind_eq_ok.mp h
      obtain ⟨next, hgive, h⟩ := bind_eq_ok.mp h
      obtain ⟨flushed, hflushed, hwritten⟩ := flush_written hflush hpending hgiven
      obtain ⟨more, hmore, hgives⟩ := ih next h .none (hflushed.give hgive)
      exact ⟨flushed ++ (option, text) :: more, hwritten (.joined option text hmore),
        by simpa using hgives⟩
  | case7 | case9 =>
      obtain ⟨_, -, h⟩ := bind_eq_ok.mp h
      cases h
  | case11 given argument rest hplain option ih =>
      cases hpending
      exact ih h (.valued option hplain) hgiven
  | case3 | case6 | case8 | case10 | case12 => cases h

end CommandLine

/-! ## The environment -/

namespace Overrides

variable {o o' : Overrides} {env : Environment} {texts : OptionName → Option String}

/-- Asking for one option gives it the text of its variable if it was not given. -/
theorem addVariables_cons {option : OptionName} {options : List OptionName} (h : o.Holds texts)
    (hadd : o.addVariables env (option :: options) = .ok o') :
    ∃ next : Overrides, next.addVariables env options = .ok o' ∧ next.Holds fun other =>
      (texts other).or (if other = option then other.envName?.bind env.get? else none) := by
  have hsame : ∀ text?, (texts option).or (option.envName?.bind env.get?) = text? →
      Function.update texts option text? = fun other =>
        (texts other).or (if other = option then other.envName?.bind env.get? else none) := by
    rintro _ rfl
    funext other
    by_cases hother : other = option
    · subst hother
      simp
    · simp [hother]
  unfold addVariables at hadd
  split at hadd
  next hhas =>
    -- It was given before, and keeps its text.
    rw [h.has_eq, Option.isSome_iff_exists] at hhas
    obtain ⟨text, htext⟩ := hhas
    refine ⟨o, hadd, ?_⟩
    rw [← hsame (texts option) (by simp [htext]), Function.update_eq_self]
    exact h
  next hhas =>
    rw [h.has_eq, Bool.not_eq_true, Option.isSome_eq_false_iff, Option.isNone_iff_eq_none] at hhas
    split at hadd
    next hnone =>
      refine ⟨o, hadd, ?_⟩
      rw [← hsame (texts option) (by simp [hhas, hnone]), Function.update_eq_self]
      exact h
    next text hsome =>
      obtain ⟨next, hset, hnext⟩ := bind_eq_ok.mp hadd
      refine ⟨next, hnext, ?_⟩
      rw [← hsame (some text) (by simp [hhas, hsome])]
      exact h.set hset

/-- The options that are asked for and were not given have the texts of their variables. -/
theorem addVariables_holds {options : List OptionName} (h : o.Holds texts)
    (hadd : o.addVariables env options = .ok o') :
    o'.Holds fun option =>
      (texts option).or (if option ∈ options then option.envName?.bind env.get? else none) := by
  induction options generalizing o texts with
  | nil =>
      obtain rfl := Except.ok.inj hadd
      simpa using h
  | cons option options ih =>
      obtain ⟨next, hnext, hholds⟩ := addVariables_cons h hadd
      intro other
      have hother := ih hholds hnext other
      dsimp only at hother ⊢
      rw [Option.or_assoc] at hother
      by_cases heq : other = option
      · subst heq
        by_cases hmem : other ∈ options <;> simpa [hmem] using hother
      · simpa [heq] using hother

/-- The options that arguments and an environment give have the texts that the arguments write down,
and those of the variables for the others. -/
theorem parse_written {arguments : List String} (h : parse env arguments = .ok o) :
    ∃ pairs, CommandLine.Written arguments pairs ∧ (pairs.map Prod.fst).Nodup ∧
      o.Holds fun option => (pairs.lookup option).or (option.envName?.bind env.get?) := by
  obtain ⟨given, hread, hadd⟩ := bind_eq_ok.mp h
  obtain ⟨pairs, hwritten, hgives⟩ := CommandLine.readArguments_written hread .none
    (⟨List.nodup_nil, Holds.empty⟩ : Gives {} [])
  refine ⟨pairs, hwritten, hgives.nodup, fun option => ?_⟩
  have hoption := addVariables_holds hgives.holds hadd option
  have hall : option ∈ OptionName.all := by cases option <;> decide
  simpa [hall] using hoption

end Overrides

end RemoteInput
