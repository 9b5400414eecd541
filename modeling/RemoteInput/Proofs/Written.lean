import RemoteInput.Proofs.Printed
import RemoteInput.Proofs.Quoted

/-!
# Reading written values back

Strings, arrays of strings and objects are read back as they were written,
whatever follows them.  A member of an object may hold a number that is not read
back.  Then the object is no JSON value at all: either the number is refused or
the reader stops inside it, and no token of an object starts there.  So the
outcome of a written object depends on its members alone (`read_object`).

The readers count their steps and take the length of the whole text for a bound.
Every string is shorter than the text it is in, and every list has fewer
elements than the text has bytes.
-/

namespace RemoteInput

/-! ## Lengths -/

namespace Encode

theorem separated_cons (p : List Char) (ps : List (List Char)) :
    separated (p :: ps) = p ++ ps.flatMap (',' :: ·) := by
  induction ps generalizing p with
  | nil => simp [separated]
  | cons q qs ih =>
      show p ++ ',' :: separated (q :: qs) = _
      rw [ih, List.flatMap_cons, List.cons_append]

theorem length_separated_cons (p : List Char) (ps : List (List Char)) :
    (Utf8.encode p).length + ps.length ≤ (Utf8.encode (separated (p :: ps))).length := by
  rw [separated_cons, Utf8.encode_append, List.length_append]
  refine Nat.add_le_add_left ?_ _
  induction ps with
  | nil => exact Nat.zero_le _
  | cons q qs ih =>
      rw [List.flatMap_cons, List.cons_append, Utf8.encode_cons, Utf8.encode_append]
      simp only [List.length_append, List.length_cons]
      have hcomma : (String.utf8EncodeChar ',').length = 1 := rfl
      omega

theorem length_le_separated {p : List Char} {ps : List (List Char)} (h : p ∈ ps) :
    (Utf8.encode p).length ≤ (Utf8.encode (separated ps)).length := by
  induction ps with
  | nil => cases h
  | cons q qs ih =>
      rcases List.mem_cons.mp h with rfl | hmem
      · have hlength := length_separated_cons p qs
        omega
      · obtain ⟨r, rs, rfl⟩ := List.exists_cons_of_ne_nil (List.ne_nil_of_mem hmem)
        have hrest := ih hmem
        show _ ≤ (Utf8.encode (q ++ ',' :: separated (r :: rs))).length
        rw [Utf8.encode_append, Utf8.encode_cons]
        simp only [List.length_append]
        omega

end Encode

namespace Json.Reader

/-! ## Strings -/

theorem encode_string (s : String) :
    Utf8.encode (Encode.string s) =
      Ascii.quote :: (Utf8.encode (s.toList.flatMap Quoted.writeChar) ++ [Ascii.quote]) := by
  simp only [Encode.string, Quoted.write, List.cons_append, Utf8.encode_cons, Utf8.encode_append]
  rfl

/-- A written string is read back after its opening quote. -/
theorem read_string (s : String) {bound : Nat}
    (h : (Utf8.encode (Encode.string s)).length ≤ bound) :
    ∃ t, Utf8.encode (Encode.string s) = Ascii.quote :: t ∧
      ∀ rest, Quoted.read bound (t ++ rest) = .ok (s, rest) := by
  refine ⟨_, encode_string s, fun rest => ?_⟩
  have hlength : (Utf8.encode (s.toList.flatMap Quoted.writeChar)).length < bound := by
    rw [encode_string] at h
    simp only [List.length_cons, List.length_append] at h
    omega
  rw [List.append_assoc, List.singleton_append, Quoted.read_write s.toList hlength rest,
    String.ofList_toList]

theorem value_string (s : String) {bound : Nat}
    (h : (Utf8.encode (Encode.string s)).length ≤ bound) (deeper : Option ValueReader) :
    Reads (valueWith bound deeper) (Utf8.encode (Encode.string s)) (.string s) := by
  obtain ⟨t, ht, hread⟩ := read_string s h
  intro rest hstops
  rw [ht]
  show (Quoted.read bound (t ++ rest) >>= fun r => Except.ok (Json.string r.1, r.2)) = _
  rw [hread]
  rfl

/-! ## Arrays of strings -/

theorem encode_array (items : List (List Char)) :
    Utf8.encode (Encode.array items) =
      Ascii.openBracket :: (Utf8.encode (Encode.separated items) ++ [Ascii.closeBracket]) := by
  show Ascii.openBracket :: Utf8.encode (Encode.separated items ++ [']']) = _
  rw [Utf8.encode_append]
  rfl

theorem encode_separated (p : List Char) (ps : List (List Char)) :
    Utf8.encode (Encode.separated (p :: ps)) =
      Utf8.encode p ++ ps.flatMap fun q => Ascii.comma :: Utf8.encode q := by
  rw [Encode.separated_cons, Utf8.encode_append]
  congr 1
  induction ps with
  | nil => rfl
  | cons q qs ih =>
      rw [List.flatMap_cons, List.flatMap_cons, Utf8.encode_append, ih]
      rfl

theorem items_comma (value : ValueReader) (bound : Nat) (seen : List Json) (s : Bytes) :
    items value (bound + 1) seen (Ascii.comma :: Ascii.quote :: s) =
      (do
        let (v, s) ← value (Ascii.quote :: s)
        items value bound (v :: seen) s) := rfl

theorem array_quote (bound : Nat) (value : ValueReader) (s : Bytes) :
    array bound value (Ascii.quote :: s) =
      (do
        let (v, s) ← value (Ascii.quote :: s)
        items value bound [v] s) := rfl

theorem valueWith_array (bound : Nat) (value : ValueReader) (s : Bytes) :
    valueWith bound (some value) (Ascii.openBracket :: s) =
      (do
        let (vs, s) ← array bound value s
        return (.array vs, s)) := rfl

/-- The start of the rest of an array or an object is no part of a number. -/
theorem stops_commas (ps : List (List Char)) (close : UInt8)
    (h : Number.isNumberByte close = false) (rest : Bytes) :
    Number.Stops ((ps.flatMap fun q => Ascii.comma :: Utf8.encode q) ++ close :: rest) := by
  cases ps with
  | nil => exact Number.stops_cons h rest
  | cons q qs => exact Number.stops_cons rfl _

/-- The items of an array of strings after the first ones. -/
theorem items_strings {value : ValueReader} {names : List String}
    (h : ∀ name ∈ names, Reads value (Utf8.encode (Encode.string name)) (.string name))
    {bound : Nat} (hbound : names.length < bound) (seen : List Json) (rest : Bytes) :
    items value bound seen
        (((names.map Encode.string).flatMap fun q => Ascii.comma :: Utf8.encode q) ++
          Ascii.closeBracket :: rest) =
      .ok (seen.reverse ++ names.map .string, rest) := by
  induction names generalizing bound seen with
  | nil =>
      obtain ⟨bound, rfl⟩ : ∃ n, bound = n + 1 := ⟨bound - 1, by omega⟩
      show Except.ok (seen.reverse, rest) = _
      simp
  | cons name names ih =>
      obtain ⟨bound, rfl⟩ : ∃ n, bound = n + 1 := ⟨bound - 1, by omega⟩
      have hread := h name (List.mem_cons_self ..) _
        (stops_commas (names.map Encode.string) Ascii.closeBracket rfl rest)
      have hrest := ih (fun n hn => h n (List.mem_cons_of_mem _ hn))
        (show names.length < bound by simpa using hbound) (.string name :: seen)
      rw [List.map_cons, List.flatMap_cons, List.append_assoc, List.cons_append]
      rw [encode_string, List.cons_append] at hread ⊢
      rw [items_comma, hread]
      show items value bound (.string name :: seen) _ = _
      rw [hrest]
      simp

/-- An array of strings is read back. -/
theorem value_strings {value : ValueReader} {names : List String}
    (h : ∀ name ∈ names, Reads value (Utf8.encode (Encode.string name)) (.string name))
    {bound : Nat}
    (hbound : (Utf8.encode (Encode.array (names.map Encode.string))).length ≤ bound) :
    Reads (valueWith bound (some value)) (Utf8.encode (Encode.array (names.map Encode.string)))
      (.array (names.map .string)) := by
  intro rest hstops
  rw [encode_array] at hbound ⊢
  cases names with
  | nil => rfl
  | cons name names =>
      have hread := h name (List.mem_cons_self ..) _
        (stops_commas (names.map Encode.string) Ascii.closeBracket rfl rest)
      have hcount := Encode.length_separated_cons (Encode.string name) (names.map Encode.string)
      have hitems := items_strings (fun n hn => h n (List.mem_cons_of_mem _ hn))
        (show names.length < bound by simp at hbound hcount ⊢; omega) [.string name] rest
      rw [List.map_cons, encode_separated]
      rw [encode_string] at hread ⊢
      simp only [List.cons_append, List.append_assoc, List.nil_append] at hread ⊢
      rw [valueWith_array, array_quote, hread]
      show (items value bound [.string name] _ >>= fun r => Except.ok (Json.array r.1, r.2)) = _
      rw [hitems]
      rfl

/-! ## Objects -/

/-- A member of a written object, with what its value is read as. -/
structure Field where
  /-- The name. -/
  name : String
  /-- The written value. -/
  text : List Char
  /-- What the value is read as, if it is. -/
  value : Option Json

namespace Field

/-- The written member. -/
def written (f : Field) : List Char := Encode.member f.name f.text

/-- The member that is read. -/
def member? (f : Field) : Option (String × Json) := f.value.map (f.name, ·)

/-- Whether a reader makes of the value what the field says, and can read the name. -/
def IsRead (bound : Nat) (value : ValueReader) (f : Field) : Prop :=
  (Utf8.encode (Encode.string f.name)).length ≤ bound ∧
    Makes value (Utf8.encode f.text) f.value

end Field

/-- A written member is read after the opening quote of its name. -/
theorem member_field {bound : Nat} {value : ValueReader} {f : Field} (h : f.IsRead bound value) :
    ∃ t, Utf8.encode f.written = Ascii.quote :: t ∧ Makes (member bound value) t f.member? := by
  obtain ⟨hname, hvalue⟩ := h
  obtain ⟨t, ht, hread⟩ := read_string f.name hname
  have hwritten : Utf8.encode f.written =
      Ascii.quote :: (t ++ [Ascii.colon] ++ Utf8.encode f.text) := by
    show Utf8.encode (Encode.string f.name ++ ':' :: f.text) = _
    rw [Utf8.encode_append, ht, List.append_assoc]
    rfl
  have hmember : (fun s => member bound value (t ++ [Ascii.colon] ++ s)) =
      fun s => value s >>= fun r => .ok ((f.name, r.1), r.2) := by
    funext s
    rw [List.append_assoc, member, hread]
    rfl
  refine ⟨_, hwritten, Makes.prefixed ?_⟩
  rw [hmember]
  exact hvalue.map fun v => (f.name, v)

/-- No byte of a number goes on with an object after a member. -/
theorem members_number {b : UInt8} (h : Number.isNumberByte b = true) (whole : Nat)
    (value : ValueReader) (bound : Nat) (seen : Members) (s : Bytes) :
    (members whole value bound seen (b :: s)).toOption = none := by
  cases bound with
  | zero => rfl
  | succ bound =>
      rw [members, skipBlank_cons (isBlank_of_isNumberByte h)]
      split
      case h_4 => rfl
      case h_1 heq => cases heq
      all_goals
        next heq =>
          rw [(List.cons.inj heq).1] at h
          exact absurd h (by decide)

theorem members_comma (whole : Nat) (value : ValueReader) (bound : Nat) (seen : Members)
    (s : Bytes) :
    members whole value (bound + 1) seen (Ascii.comma :: Ascii.quote :: s) =
      (do
        let (m, s) ← member whole value s
        members whole value bound (m :: seen) s) := rfl

/-- The members of an object after the first ones. -/
theorem members_fields {whole : Nat} {value : ValueReader} {fields : List Field}
    (h : ∀ f ∈ fields, f.IsRead whole value) {bound : Nat} (hbound : fields.length < bound)
    (seen : Members) (rest : Bytes) :
    (members whole value bound seen
        (((fields.map Field.written).flatMap fun q => Ascii.comma :: Utf8.encode q) ++
          Ascii.closeBrace :: rest)).toOption =
      (fields.mapM Field.member?).map fun ms => (seen.reverse ++ ms, rest) := by
  induction fields generalizing bound seen with
  | nil =>
      obtain ⟨bound, rfl⟩ : ∃ n, bound = n + 1 := ⟨bound - 1, by omega⟩
      show some (seen.reverse, rest) = _
      simp
  | cons f fields ih =>
      obtain ⟨bound, rfl⟩ : ∃ n, bound = n + 1 := ⟨bound - 1, by omega⟩
      obtain ⟨t, ht, hmakes⟩ := member_field (h f (List.mem_cons_self ..))
      have hstops := stops_commas (fields.map Field.written) Ascii.closeBrace rfl rest
      have hrest := fun m => ih (fun g hg => h g (List.mem_cons_of_mem _ hg))
        (show fields.length < bound by simpa using hbound) (m :: seen)
      rw [List.map_cons, List.flatMap_cons, List.append_assoc, List.cons_append, ht,
        List.cons_append, members_comma,
        hmakes.toOption_bind (fun m b s hb => members_number hb whole value bound (m :: seen) s)
          hstops]
      -- A member that is not read ends the object, whatever the members after it are.
      simp only [hrest, List.mapM_cons]
      cases f.member? with
      | none => rfl
      | some m =>
          cases fields.mapM Field.member? with
          | none => rfl
          | some ms => simp

theorem encode_object (members : List (List Char)) :
    Utf8.encode (Encode.object members) =
      Ascii.openBrace :: (Utf8.encode (Encode.separated members) ++ [Ascii.closeBrace]) := by
  show Ascii.openBrace :: Utf8.encode (Encode.separated members ++ ['\x7d']) = _
  rw [Utf8.encode_append]
  rfl

theorem object_quote (bound : Nat) (value : ValueReader) (s : Bytes) :
    object bound value (Ascii.quote :: s) =
      (do
        let (m, s) ← member bound value s
        members bound value bound [m] s) := rfl

theorem valueWith_object (bound : Nat) (value : ValueReader) (s : Bytes) :
    valueWith bound (some value) (Ascii.openBrace :: s) =
      (do
        let (ms, s) ← object bound value s
        return (.object ms, s)) := rfl

/-- A written object is read as its members, if they all are. -/
theorem value_fields {bound : Nat} {value : ValueReader} {f : Field} {fields : List Field}
    (h : ∀ g ∈ f :: fields, g.IsRead bound value)
    (hbound : (Utf8.encode (Encode.object ((f :: fields).map Field.written))).length ≤ bound)
    (rest : Bytes) :
    (valueWith bound (some value)
        (Utf8.encode (Encode.object ((f :: fields).map Field.written)) ++ rest)).toOption =
      ((f :: fields).mapM Field.member?).map fun ms => (.object ms, rest) := by
  obtain ⟨t, ht, hmakes⟩ := member_field (h f (List.mem_cons_self ..))
  have hstops := stops_commas (fields.map Field.written) Ascii.closeBrace rfl rest
  have hcount := Encode.length_separated_cons f.written (fields.map Field.written)
  have hrest := fun m => members_fields (fun g hg => h g (List.mem_cons_of_mem _ hg))
    (show fields.length < bound by
      rw [encode_object] at hbound
      simp only [List.map_cons, List.length_cons, List.length_append,
        List.length_map] at hbound hcount
      omega) [m] rest
  rw [encode_object, List.map_cons, encode_separated, ht]
  simp only [List.cons_append, List.append_assoc, List.nil_append]
  rw [valueWith_object, object_quote, Number.toOption_bind,
    hmakes.toOption_bind (fun m b s hb => members_number hb bound value bound [m] s) hstops]
  simp only [hrest, List.mapM_cons]
  cases f.member? with
  | none => rfl
  | some m =>
      cases fields.mapM Field.member? with
      | none => rfl
      | some ms => rfl

/-! ## Whole texts -/

/-- The outcome of a text that is a written object and blanks depends on the members alone. -/
theorem read_object {f : Field} {fields : List Field} {blanks : Bytes}
    (hblanks : ∀ b ∈ blanks, isBlank b = true)
    (h : ∀ bound, (Utf8.encode (Encode.object ((f :: fields).map Field.written))).length ≤ bound →
      ∀ g ∈ f :: fields, g.IsRead bound (value bound 126)) :
    (Json.read (Utf8.encode (Encode.object ((f :: fields).map Field.written)) ++ blanks)).toOption =
      ((f :: fields).mapM Field.member?).map .object := by
  -- The bound of the readers is the length of the text, blanks included.
  let text := Utf8.encode (Encode.object ((f :: fields).map Field.written)) ++ blanks
  have hbound : (Utf8.encode (Encode.object ((f :: fields).map Field.written))).length ≤
      text.length := by
    rw [List.length_append]
    omega
  have hvalue := value_fields (h text.length hbound) hbound blanks
  change (value text.length maxDepth text).toOption = _ at hvalue
  have hread : (Json.read text).toOption = (document text).toOption := by
    rw [Json.read]
    cases document text <;> rfl
  rw [hread, document, Number.toOption_bind, hvalue]
  cases (f :: fields).mapM Field.member? with
  | none => rfl
  | some ms =>
      simp only [Option.map_some, Option.bind_some, skipBlank_eq_nil.mpr hblanks]
      rfl

end Json.Reader

end RemoteInput
