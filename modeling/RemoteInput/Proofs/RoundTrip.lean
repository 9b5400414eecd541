import RemoteInput.Proofs.Messages
import RemoteInput.Proofs.Reread

/-!
# Decoding what was encoded

Every event with finite numbers is encoded, and what is decoded of its line is
the event with its numbers read back from the printed ones
(`decodeLine_encodeLine_reread`).  So the decoded event is equal to it exactly
when scaling the digits of each of its numbers gives that number back
(`decodeLine_encodeLine_iff`).

It does not for every number.  The printed decimal is the shortest one that is
nearest to the double, but the reader rounds twice, and for digits enough the
second rounding can end up at a neighbour (`decodeLine_encodeLine_neighbour`).
-/

namespace RemoteInput

/-! ## What an encoded event is decoded as -/

/-- A finite event is encoded as a text whose last character is its only line feed.  If each of its
numbers is read back, the line is decoded as the event with its numbers read back and all else as it
was.  If one of them is not, the line is no JSON text.  The time of receipt plays no part in it. -/
theorem decodeLine_encodeLine_reread (e : Event) (h : e.isFinite = true) :
    ∃ text, e.encodeLine = .ok text ∧
      (∃ body, text.toList = body ++ ['\n'] ∧ '\n' ∉ body) ∧
      ((∀ x ∈ e.numbers, (Encode.reread x).isSome = true) →
        ∃ f, e.reread = some f ∧
          ∀ receivedAt, Event.decodeLine (Utf8.encode text.toList) receivedAt = ⟨false, .ok f⟩) ∧
      ((∃ x ∈ e.numbers, Encode.reread x = none) →
        ∃ error, ∀ receivedAt, Event.decodeLine (Utf8.encode text.toList) receivedAt =
          ⟨false, .error (.malformedMessage error)⟩) := by
  have hblanks : ∀ b ∈ [Ascii.newline], Json.Reader.isBlank b = true := by
    simp [Json.Reader.isBlank]
  have hnewline : '\n' ∉ e.body := fun hmem => absurd (e.le_of_mem_body hmem) (by decide)
  refine ⟨String.ofList e.line, by rw [Event.encodeLine, if_pos h],
    ⟨e.body, by rw [String.toList_ofList, Event.line_eq], hnewline⟩, ?_, ?_⟩
  · intro hread
    obtain ⟨f, hf⟩ := Option.isSome_iff_exists.mp (Event.isSome_reread.mpr hread)
    refine ⟨f, hf, fun receivedAt => ?_⟩
    rw [String.toList_ofList, Event.encode_line, Event.decodeLine_body hblanks hf]
  · rintro ⟨x, hx, hnone⟩
    have hreread : e.reread = none := by
      rw [← Option.not_isSome_iff_eq_none, Event.isSome_reread]
      intro hall
      simpa [hnone] using hall x hx
    obtain ⟨error, hjson⟩ := Event.read_unread hblanks hreread
    refine ⟨error, fun receivedAt => ?_⟩
    rw [String.toList_ofList, Event.encode_line]
    simp only [Event.decodeLine, hjson]

/-- A key with a line feed, a quote, a backslash and a character outside the basic plane comes up at
a time. -/
def clefRelease (time : Float) : Event :=
  ⟨time, .keyboard "\"\n\\𝄞\u0001" .up (.ofList [.alt, .cmd])⟩

/-- The key comes through as it is, and the time becomes the double next to it. -/
theorem decodeLine_encodeLine_reread_clef :
    let e := clefRelease (.ofBits 0x41DA0073DC9EA5DE)
    e.isFinite = true ∧ (∀ x ∈ e.numbers, (Encode.reread x).isSome = true) ∧
      ∃ text, e.encodeLine = .ok text ∧
        ∀ receivedAt, Event.decodeLine (Utf8.encode text.toList) receivedAt =
          ⟨false, .ok (clefRelease (.ofBits 0x41DA0073DC9EA5DD))⟩ := by
  have hfinite : (clefRelease (.ofBits 0x41DA0073DC9EA5DE)).isFinite = true := by decide +kernel
  have hread : ∀ x ∈ (clefRelease (.ofBits 0x41DA0073DC9EA5DE)).numbers,
      (Encode.reread x).isSome = true := by decide +kernel
  have hreread : (clefRelease (.ofBits 0x41DA0073DC9EA5DE)).reread =
      some (clefRelease (.ofBits 0x41DA0073DC9EA5DD)) := by decide +kernel
  obtain ⟨text, htext, -, hdecode, -⟩ := decodeLine_encodeLine_reread _ hfinite
  obtain ⟨f, hf, hdecode⟩ := hdecode hread
  obtain rfl := Option.some.inj (hf.symm.trans hreread)
  exact ⟨hfinite, hread, text, htext, hdecode⟩

/-! ## Equal numbers -/

/-- Whether scaling the parts of its shortest decimal gives a double back. -/
def Encode.readsBack (x : Float) : Bool := (Encode.rescaled x).any (· == x)

theorem Encode.readsBack_eq (x : Float) : Encode.readsBack x = (Encode.reread x).any (· == x) := by
  rw [Encode.readsBack, Encode.reread_eq_rescaled]

theorem Input.reread_agrees_iff (i : Input) :
    (∃ i', i.reread = some i' ∧ i'.agrees i = true) ↔
      ∀ x ∈ i.numbers, Encode.readsBack x = true := by
  cases i with
  | keyboard key action modifiers =>
      simp [Input.reread, Input.agrees, Input.numbers]
  | trackpad action dx dy =>
      cases hdx : Encode.reread dx with
      | none => simp [Input.reread, Input.numbers, Encode.readsBack_eq, hdx]
      | some dx' =>
          cases hdy : Encode.reread dy with
          | none => simp [Input.reread, Input.numbers, Encode.readsBack_eq, hdx, hdy]
          | some dy' =>
              simp [Input.reread, Input.agrees, Input.numbers, Encode.readsBack_eq, hdx, hdy]
  | system command =>
      simp [Input.reread, Input.agrees, Input.numbers]

theorem Event.reread_agrees_iff (e : Event) :
    (∃ e', e.reread = some e' ∧ e'.agrees e = true) ↔
      ∀ x ∈ e.numbers, Encode.readsBack x = true := by
  rw [Event.numbers, List.forall_mem_cons, ← Input.reread_agrees_iff]
  cases htime : Encode.reread e.timestamp with
  | none => simp [Event.reread, Encode.readsBack_eq, htime]
  | some time =>
      cases hinput : e.input.reread with
      | none => simp [Event.reread, hinput, htime]
      | some input => simp [Event.reread, Event.agrees, Encode.readsBack_eq, htime, hinput]

/-! ## The round trip -/

/-- A finite event is encoded, and decoding its line gives an equal event exactly when each of its
numbers is given back by scaling its digits. -/
theorem decodeLine_encodeLine_iff (e : Event) (h : e.isFinite = true) (receivedAt : Float) :
    ∃ text, e.encodeLine = .ok text ∧
      ((∃ f, (Event.decodeLine (Utf8.encode text.toList) receivedAt).result = .ok f ∧
          f.agrees e = true) ↔
        ∀ x ∈ e.numbers, Encode.readsBack x = true) := by
  refine ⟨String.ofList e.line, by rw [Event.encodeLine, if_pos h], ?_⟩
  have hblanks : ∀ b ∈ [Ascii.newline], Json.Reader.isBlank b = true := by
    simp [Json.Reader.isBlank]
  rw [String.toList_ofList, Event.encode_line, ← Event.reread_agrees_iff]
  cases hreread : e.reread with
  | none =>
      obtain ⟨error, hdecode⟩ := Event.decodeLine_unread hblanks hreread receivedAt
      rw [hdecode]
      simp
  | some e' =>
      rw [Event.decodeLine_body hblanks hreread]
      simp

/-- A key with a quote and a line feed in it, at a time with a short decimal. -/
theorem decodeLine_encodeLine_iff_key :
    ∃ text, (⟨1700000000.125, .keyboard "\"\n" .down (.ofList [.alt, .cmd])⟩ : Event).encodeLine =
        .ok text ∧
      ∃ f, (Event.decodeLine (Utf8.encode text.toList) 0).result = .ok f ∧
        f.agrees ⟨1700000000.125, .keyboard "\"\n" .down (.ofList [.alt, .cmd])⟩ = true := by
  obtain ⟨text, htext, hiff⟩ := decodeLine_encodeLine_iff
    ⟨1700000000.125, .keyboard "\"\n" .down (.ofList [.alt, .cmd])⟩ (by decide +kernel) 0
  exact ⟨text, htext, hiff.mpr (by decide +kernel)⟩

/-- A time with seven decimals comes back as the double next to it. -/
theorem decodeLine_encodeLine_neighbour :
    (⟨Float.ofBits 0x41DA0073DC9EA5DE, .system .sleep⟩ : Event).isFinite = true ∧
      (Event.decodeLine
        (Utf8.encode (⟨Float.ofBits 0x41DA0073DC9EA5DE, .system .sleep⟩ : Event).line)
        0).result.toOption = some ⟨Float.ofBits 0x41DA0073DC9EA5DD, .system .sleep⟩ ∧
      (⟨Float.ofBits 0x41DA0073DC9EA5DD, .system .sleep⟩ : Event).agrees
        ⟨Float.ofBits 0x41DA0073DC9EA5DE, .system .sleep⟩ = false := by
  decide +kernel

end RemoteInput
