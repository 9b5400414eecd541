/-!
# Outcomes and lists of names

What the outcome of a computation that may fail says about the outcomes of its
parts, and what is found under a name in a list of names with values.
-/

namespace RemoteInput

/-! ## Computations that may fail -/

section Outcomes

variable {ε ε' α β : Type} {x : Except ε α}

/-- A computation and what comes after it succeed if both do. -/
theorem bind_eq_ok {f : α → Except ε β} {b : β} :
    (x >>= f) = .ok b ↔ ∃ a, x = .ok a ∧ f a = .ok b := by
  cases x <;> simp [bind, Except.bind]

/-- They fail if one of them does, and the first one that fails has the say. -/
theorem bind_eq_error {f : α → Except ε β} {e : ε} :
    (x >>= f) = .error e ↔ x = .error e ∨ ∃ a, x = .ok a ∧ f a = .error e := by
  cases x <;> simp [bind, Except.bind]

theorem mapError_eq_ok {f : ε → ε'} {a : α} : x.mapError f = .ok a ↔ x = .ok a := by
  constructor
  · intro h
    cases x with
    | error e => cases h
    | ok b =>
        cases h
        rfl
  · rintro rfl
    rfl

theorem mapError_eq_error {f : ε → ε'} {e' : ε'} :
    x.mapError f = .error e' ↔ ∃ e, x = .error e ∧ f e = e' := by
  constructor
  · intro h
    cases x with
    | error e => exact ⟨e, rfl, Except.error.inj h⟩
    | ok a => cases h
  · rintro ⟨e, rfl, rfl⟩
    rfl

theorem map_eq_ok {f : α → β} {b : β} : x.map f = .ok b ↔ ∃ a, x = .ok a ∧ f a = b := by
  cases x <;> simp [Except.map]

theorem map_mapError (x : Except ε α) (f : ε → ε') (g : α → β) :
    (x.mapError f).map g = (x.map g).mapError f := by
  cases x <;> rfl

/-- What is done to the result of a computation can be done in its last step. -/
theorem map_bind_ok {γ : Type} (x : Except ε α) (f : α → β) (g : β → γ) :
    (x >>= fun a => .ok (f a)).map g = x >>= fun a => .ok (g (f a)) := by
  cases x <;> rfl

/-- Two computations whose results look alike fail alike, or both succeed. -/
theorem map_eq_map {x' : Except ε α} {f : α → β} (h : x.map f = x'.map f) :
    (∃ e, x = .error e ∧ x' = .error e) ∨ ∃ a a', x = .ok a ∧ x' = .ok a' ∧ f a = f a' := by
  cases x with
  | error e =>
      cases x' with
      | error e' =>
          cases h
          exact .inl ⟨e, rfl, rfl⟩
      | ok a' => cases h
  | ok a =>
      cases x' with
      | error e' => cases h
      | ok a' => exact .inr ⟨a, a', rfl, rfl, Except.ok.inj h⟩

end Outcomes

/-! ## Names with values -/

section Names

variable {α β : Type} [BEq α] [LawfulBEq α] {pairs : List (α × β)} {name : α} {b : β}

theorem lookup_eq_none : pairs.lookup name = none ↔ name ∉ pairs.map Prod.fst := by
  rw [List.lookup_eq_none_iff, List.mem_map]
  constructor
  · rintro h ⟨pair, hpair, rfl⟩
    simpa using h pair hpair
  · intro h pair hpair
    rw [bne_iff_ne]
    rintro rfl
    exact h ⟨pair, hpair, rfl⟩

theorem mem_of_lookup (h : pairs.lookup name = some b) : (name, b) ∈ pairs := by
  obtain ⟨before, after, rfl, -⟩ := List.lookup_eq_some_iff.mp h
  simp

/-- What is found when there is one more name in front. -/
theorem lookup_cons_or [DecidableEq α] (first : α) (b : β) (pairs : List (α × β)) (name : α) :
    ((first, b) :: pairs).lookup name =
      (if first = name then some b else none).or (pairs.lookup name) := by
  by_cases h : first = name
  · subst h
    simp
  · simp [List.lookup_cons, h, beq_eq_false_iff_ne.mpr (Ne.symm h)]

/-- With distinct names each pair is found under its name. -/
theorem lookup_eq_some_iff (h : (pairs.map Prod.fst).Nodup) :
    pairs.lookup name = some b ↔ (name, b) ∈ pairs := by
  refine ⟨mem_of_lookup, fun hmem => ?_⟩
  obtain ⟨before, after, rfl⟩ := List.append_of_mem hmem
  rw [List.map_append, List.map_cons, List.nodup_append] at h
  refine List.lookup_eq_some_iff.mpr ⟨before, after, rfl, fun pair hpair => ?_⟩
  have hne := h.2.2 pair.1 (List.mem_map_of_mem hpair) name (List.mem_cons_self ..)
  simpa using Ne.symm hne

/-- A list of distinct names stays one with a new name at its end. -/
theorem nodup_names_append (h : (pairs.map Prod.fst).Nodup) (hname : pairs.lookup name = none)
    (b : β) : ((pairs ++ [(name, b)]).map Prod.fst).Nodup := by
  rw [List.map_append, List.nodup_append]
  refine ⟨h, by simp, ?_⟩
  rintro other hother _ hnew rfl
  rw [List.mem_singleton.mp hnew] at hother
  exact lookup_eq_none.mp hname hother

end Names

end RemoteInput
