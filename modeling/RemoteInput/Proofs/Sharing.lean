import Mathlib.Data.List.Perm.Subperm
import RemoteInput.Injection.UseCase
import RemoteInput.Proofs.Keymap
import RemoteInput.Proofs.Steady

/-!
# Events dispatched through clones of one use case

Every clone of a use case is a handle to the state that the use case was made with, so it
does not matter through which of them an event goes (`IsClone.eq`).  One dispatch answers as
the backend does in its state and puts the next state in its place (`dispatch_eq`).  So
events in order are answered as the backend answers their inputs, one after the other, and
every other state of the store stays as it is (`dispatchAll_clones`).  The times of the events
play no part.

A steady backend answers each input on its own (`answers_steady`).  What the logging backend
answers is told by `Logs`, which knows of the keymap as a list of rows and of a set of
modifiers as a list in canonical order, and of no lookup (`logs_iff`).
-/

namespace RemoteInput

/-! ## Modifiers in canonical order -/

/-- Whether a list holds the members of a set, once each and in canonical order. -/
structure Modifiers.Lists (set : Modifiers) (ms : List Modifier) : Prop where
  sublist : ms.Sublist [.cmd, .shift, .ctrl, .alt]
  mem_iff : ∀ m, m ∈ ms ↔ set.contains m = true

theorem Modifiers.lists_toList (set : Modifiers) : set.Lists set.toList where
  sublist := List.filter_sublist
  mem_iff m := by
    rw [toList, List.mem_filter]
    exact and_iff_right (by cases m <;> decide)

/-- There is one such list only. -/
theorem Modifiers.Lists.eq {set : Modifiers} {ms : List Modifier} (h : set.Lists ms) :
    ms = set.toList := by
  have hown : ms.filter set.contains = ms :=
    List.filter_eq_self.mpr fun m hm => (h.mem_iff m).mp hm
  have hsublist : ms.Sublist set.toList := by
    rw [← hown]
    exact h.sublist.filter set.contains
  have hnodup : set.toList.Nodup := List.Nodup.filter _ (by decide)
  have hsubset : set.toList ⊆ ms := fun m hm =>
    (h.mem_iff m).mpr ((set.lists_toList.mem_iff m).mp hm)
  exact hsublist.eq_of_length_le (hnodup.subperm hsubset).length_le

/-! ## The answers of a backend -/

namespace Injection

section Answers

variable {σ : Type} (backend : Backend σ)

/-- What a backend answers to an input. -/
def Backend.answer (state : σ) (input : Input) : Answer :=
  ⟨(backend.inject state input).result, (backend.inject state input).log⟩

/-- What a backend answers to inputs in order. -/
def Backend.answers : σ → List Input → List Answer
  | _, [] => []
  | state, input :: inputs =>
    backend.answer state input :: Backend.answers (backend.inject state input).state inputs

/-- A steady backend answers each input as it would in any state. -/
theorem answers_steady [hsteady : Steady backend] (state any : σ) (inputs : List Input) :
    backend.answers state inputs = inputs.map (backend.answer any) := by
  induction inputs generalizing state with
  | nil => rfl
  | cons input inputs ih =>
      have hanswer : backend.answer state input = backend.answer any input := by
        rw [Backend.answer, hsteady.result_congr state any, hsteady.log_congr state any]
        rfl
      rw [Backend.answers, List.map_cons, hanswer, ih]

end Answers

/-- The failing backend remembers nothing. -/
theorem after_failing (seen : List Input) (inputs : List Input) :
    failing.after seen inputs = seen := by
  induction inputs with
  | nil => rfl
  | cons input inputs ih => exact ih

/-- What the logging backend answers to an input. -/
inductive Logs : Input → Answer → Prop
  /-- A key that is in no row is refused with its text as it came, and leaves no record. -/
  | unknownKey {key : String} {action : KeyAction} {modifiers : Modifiers}
    (hkey : ∀ row ∈ Keyboard.table, asciiUpper key ∉ row.names) :
    Logs (.keyboard key action modifiers) ⟨.error (.unsupportedKey key), []⟩
  | keyboard {key : String} {action : KeyAction} {modifiers : Modifiers} {row : Keyboard.Key}
    {ms : List Modifier} (hrow : row ∈ Keyboard.table) (hkey : asciiUpper key ∈ row.names)
    (hms : modifiers.Lists ms) :
    Logs (.keyboard key action modifiers) ⟨.ok (),
      [ { level := .info
          message := "keyboard event"
          fields :=
            [ ("keycode", .count row.code.toNat),
              ("action", .text (wireName action)),
              ("modifiers", .text ("[" ++
                ", ".intercalate (ms.map fun m => "\"" ++ wireName m ++ "\"") ++ "]")) ] } ]⟩
  | trackpad {action : TrackpadAction} {dx dy : Float} :
    Logs (.trackpad action dx dy) ⟨.ok (),
      [ { level := .info
          message := "trackpad event"
          fields := [("action", .text (wireName action)), ("dx", .real dx), ("dy", .real dy)] } ]⟩
  | system {command : SystemCommand} :
    Logs (.system command) ⟨.ok (),
      [ { level := .info
          message := "system command"
          fields := [("command", .text (wireName command))] } ]⟩

/-- The logging backend answers to an input what is told of it, and nothing else is told. -/
theorem logs_iff {input : Input} {answer : Answer} :
    Logs input answer ↔ logging.answer () input = answer := by
  constructor
  · intro h
    cases h with
    | unknownKey hkey =>
        simp only [Backend.answer, logging, record, Keyboard.code?_eq_none.mpr hkey]
    | keyboard hrow hkey hms =>
        obtain rfl := hms.eq
        simp only [Backend.answer, logging, record, Keyboard.code?_eq_some hrow hkey]
        rfl
    | trackpad => rfl
    | system => rfl
  · rintro rfl
    cases input with
    | keyboard key action modifiers =>
        by_cases hkey : ∀ row ∈ Keyboard.table, asciiUpper key ∉ row.names
        · simp only [Backend.answer, logging, record, Keyboard.code?_eq_none.mpr hkey]
          exact .unknownKey hkey
        · push Not at hkey
          obtain ⟨row, hrow, hname⟩ := hkey
          simp only [Backend.answer, logging, record, Keyboard.code?_eq_some hrow hname]
          exact .keyboard hrow hname modifiers.lists_toList
    | trackpad action dx dy => exact .trackpad
    | system command => exact .system

end Injection

namespace UseCase

variable {σ : Type} {u v : UseCase σ} {store : Store σ} {state : σ}

/-! ## Clones -/

/-- Whether a use case is another one, a clone of it, a clone of a clone and so on. -/
inductive IsClone (u : UseCase σ) : UseCase σ → Prop
  | self : IsClone u u
  | clone {v : UseCase σ} (h : IsClone u v) : IsClone u v.clone

theorem IsClone.eq (h : u.IsClone v) : v = u := by
  induction h with
  | self => rfl
  | clone _ ih => exact ih

/-! ## Events in order -/

/-- A dispatch answers as the backend does and puts its next state in place of the one before. -/
theorem dispatch_eq (h : store[u.address]? = some state) (event : Event) :
    u.dispatch store event =
      some (u.backend.answer state event.input,
        store.set u.address (u.backend.inject state event.input).state) := by
  rw [dispatch, h]
  rfl

/-- Events that are dispatched through any clones are answered as the backend answers their inputs
in order.  No other state changes. -/
theorem dispatchAll_clones (h : store[u.address]? = some state) {steps : List (UseCase σ × Event)}
    (hclones : ∀ step ∈ steps, u.IsClone step.1) :
    dispatchAll store steps =
      some (u.backend.answers state (steps.map (·.2.input)),
        store.set u.address (u.backend.after state (steps.map (·.2.input)))) := by
  induction steps generalizing store state with
  | nil =>
      have hsame : store.set u.address state = store := by
        obtain ⟨hlt, hget⟩ := List.getElem?_eq_some_iff.mp h
        rw [← hget, List.set_getElem_self]
      show some ([], store) = some ([], store.set u.address state)
      rw [hsame]
  | cons step steps ih =>
      obtain ⟨v, event⟩ := step
      obtain rfl : v = u := (hclones _ List.mem_cons_self).eq
      let next := (v.backend.inject state event.input).state
      have hnext : (store.set v.address next)[v.address]? = some next :=
        List.getElem?_set_self (List.getElem?_eq_some_iff.mp h).1
      have hrest := ih hnext fun step hstep => hclones step (List.mem_cons_of_mem _ hstep)
      rw [dispatchAll, dispatch_eq h]
      show (dispatchAll (store.set v.address next) steps).bind _ = _
      rw [hrest, List.set_set]
      rfl

/-- The same for a backend that was just shared. -/
theorem dispatchAll_new (backend : Injection.Backend σ) (start : σ) (store : Store σ)
    {steps : List (UseCase σ × Event)}
    (hclones : ∀ step ∈ steps, (new backend start store).1.IsClone step.1) :
    dispatchAll (new backend start store).2 steps =
      some (backend.answers start (steps.map (·.2.input)),
        store ++ [backend.after start (steps.map (·.2.input))]) := by
  have hstart : (store ++ [start])[store.length]? = some start := List.getElem?_concat_length
  have hset (state : σ) : (store ++ [start]).set store.length state = store ++ [state] := by
    rw [List.set_append_right _ _ (Nat.le_refl _), Nat.sub_self]
    rfl
  have hall := dispatchAll_clones (u := (new backend start store).1) hstart hclones
  rwa [new, hset] at hall

/-! ## Three backends -/

/-- Events that are dispatched in order, each through any clone of one use case.  The recording
backend takes them all and remembers their inputs in order.  The failing one refuses them all and
remembers nothing.  What the logging one answers is what is told of each of them.  Whatever the
backend is, events with the same inputs are answered alike and leave the same behind, through any
clones and at any times. -/
theorem dispatchAll_effects :
    (∀ (calls : List Input) store steps,
        (∀ step ∈ steps, (new Injection.recording calls store).1.IsClone step.1) →
        dispatchAll (new Injection.recording calls store).2 steps =
          some (steps.map fun _ => ⟨.ok (), []⟩, store ++ [calls ++ steps.map (·.2.input)])) ∧
      (∀ (calls : List Input) store steps,
        (∀ step ∈ steps, (new Injection.failing calls store).1.IsClone step.1) →
        dispatchAll (new Injection.failing calls store).2 steps =
          some (steps.map fun _ => ⟨.error (.platform "mock failure"), []⟩, store ++ [calls])) ∧
      (∀ store steps,
        (∀ step ∈ steps, (new Injection.logging () store).1.IsClone step.1) →
        ∃ answers, dispatchAll (new Injection.logging () store).2 steps =
            some (answers, store ++ [()]) ∧
          ∀ told, List.Forall₂ (fun step answer => Injection.Logs step.2.input answer) steps told ↔
            told = answers) ∧
      ∀ (σ : Type) (backend : Injection.Backend σ) start store steps steps',
        (∀ step ∈ steps, (new backend start store).1.IsClone step.1) →
        (∀ step ∈ steps', (new backend start store).1.IsClone step.1) →
        steps.map (·.2.input) = steps'.map (·.2.input) →
        dispatchAll (new backend start store).2 steps =
          dispatchAll (new backend start store).2 steps' := by
  refine ⟨?_, ?_, ?_, ?_⟩
  · intro calls store steps hclones
    rw [dispatchAll_new _ _ _ hclones, Injection.after_recording,
      Injection.answers_steady _ calls calls, List.map_map]
    rfl
  · intro calls store steps hclones
    rw [dispatchAll_new _ _ _ hclones, Injection.after_failing,
      Injection.answers_steady _ calls calls, List.map_map]
    rfl
  · intro store steps hclones
    refine ⟨_, dispatchAll_new _ _ _ hclones, fun told => ?_⟩
    have hanswers := Injection.answers_steady Injection.logging () () (steps.map (·.2.input))
    rw [hanswers, List.map_map, eq_comm, ← List.forall₂_eq_eq_eq, List.forall₂_map_left_iff]
    simp only [Injection.logs_iff]
    rfl
  · intro σ backend start store steps steps' hclones hclones' hinputs
    rw [dispatchAll_new _ _ _ hclones, dispatchAll_new _ _ _ hclones', hinputs]

/-- Events with a use case for each of them, a clone of the one before. -/
def throughClones (u : UseCase σ) : List Event → List (UseCase σ × Event)
  | [] => []
  | event :: events => (u, event) :: throughClones u.clone events

theorem isClone_throughClones (events : List Event) :
    ∀ step ∈ u.throughClones events, u.IsClone step.1 := by
  suffices ∀ v, u.IsClone v → ∀ step ∈ v.throughClones events, u.IsClone step.1 from
    this u .self
  induction events with
  | nil =>
      intro v _ step hstep
      cases hstep
  | cons event events ih =>
      intro v hv step hstep
      rcases List.mem_cons.mp hstep with rfl | hstep
      · exact hv
      · exact ih v.clone hv.clone step hstep

/-- A key without a code, a key with modifiers out of order, a pointer and a command. -/
def mixedEvents : List Event :=
  [ ⟨1, .keyboard "Hyper" .down ∅⟩,
    ⟨2, .keyboard "a" .up (.ofList [.alt, .cmd])⟩,
    ⟨3, .trackpad .scroll 1.5 (-2)⟩,
    ⟨4, .system .sleep⟩ ]

/-- These events through four handles to a backend that is shared alone. -/
def mixedSteps (backend : Injection.Backend σ) (start : σ) : List (UseCase σ × Event) :=
  (new backend start []).1.throughClones mixedEvents

/-- The first key is refused with its text as it came, and the modifiers of the second one are
reported in canonical order. -/
theorem dispatchAll_effects_mixed :
    dispatchAll [[]] (mixedSteps Injection.recording []) =
        some (mixedEvents.map fun _ => ⟨.ok (), []⟩, [mixedEvents.map (·.input)]) ∧
      dispatchAll [[]] (mixedSteps Injection.failing []) =
        some (mixedEvents.map fun _ => ⟨.error (.platform "mock failure"), []⟩, [[]]) ∧
      dispatchAll [()] (mixedSteps Injection.logging ()) =
        some (
          [ ⟨.error (.unsupportedKey "Hyper"), []⟩,
            ⟨.ok (), [⟨.info, "keyboard event", [("keycode", .count 0), ("action", .text "UP"),
              ("modifiers", .text "[\"CMD\", \"ALT\"]")]⟩]⟩,
            ⟨.ok (), [⟨.info, "trackpad event",
              [("action", .text "SCROLL"), ("dx", .real 1.5), ("dy", .real (-2))]⟩]⟩,
            ⟨.ok (), [⟨.info, "system command", [("command", .text "SLEEP")]⟩]⟩ ],
          [()]) ∧
      dispatchAll [[]] (mixedSteps Injection.recording []) =
        dispatchAll [[]] (mixedEvents.map fun event =>
          ((new Injection.recording [] []).1, { event with timestamp := 0 })) := by
  refine ⟨?_, ?_, ?_, ?_⟩
  · exact dispatchAll_effects.1 [] [] _ (isClone_throughClones mixedEvents)
  · exact dispatchAll_effects.2.1 [] [] _ (isClone_throughClones mixedEvents)
  · obtain ⟨answers, hrun, htold⟩ := dispatchAll_effects.2.2.1 [] _
      (isClone_throughClones mixedEvents)
    refine hrun.trans (congrArg (fun answers => some (answers, [()])) ((htold _).mp ?_).symm)
    have hrow : (⟨0x00, ["A"]⟩ : Keyboard.Key) ∈ Keyboard.table := List.mem_cons_self
    have hmodifiers : (Modifiers.ofList [.alt, .cmd]).Lists [.cmd, .alt] :=
      ⟨by decide, fun m => by cases m <;> decide⟩
    refine .cons (.unknownKey (by decide +kernel)) (.cons ?_ (.cons .trackpad (.cons .system .nil)))
    exact .keyboard hrow (by decide) hmodifiers
  · refine dispatchAll_effects.2.2.2 _ _ [] [] _ _ (isClone_throughClones mixedEvents) ?_ rfl
    intro step hstep
    obtain ⟨event, -, rfl⟩ := List.mem_map.mp hstep
    exact .self

end UseCase

end RemoteInput
