import Mathlib.Data.Option.Basic
import RemoteInput.Proofs.Basics
import RemoteInput.Proofs.Digits
import RemoteInput.Toml.Reader

/-!
# Documents are well-formed

No two entries of a table have one name, in any table of a document, and every
integer in it fits 64 bits with sign (`Entries.WellFormed`).  So it does not
matter whether the first or the last entry of a name is taken for its value.

A change at the end of a path keeps the tables on its way well-formed if it does
so at its end (`Change.Keeps.along`): the path goes on in the table of a name,
which is put back under that name, or in a new one under a name that was free.
Every placement is such a change, and a document is placed line by line
(`parse?_wellFormed`).
-/

namespace RemoteInput.Toml

/-! ## WellFormed names -/

/-- Whether the names of each table in a value are distinct. -/
inductive WellFormed : Toml → Prop where
  | string (text : String) : WellFormed (.string text)
  | integer {value : Int} (hleast : -2 ^ 63 ≤ value) (hgreatest : value < 2 ^ 63) :
    WellFormed (.integer value)
  | float (value : Float) : WellFormed (.float value)
  | boolean (value : Bool) : WellFormed (.boolean value)
  | datetime : WellFormed .datetime
  | array {items : List Toml} (h : ∀ v ∈ items, WellFormed v) : WellFormed (.array items)
  | table {origin : Origin} {entries : Entries} (hnames : (entries.map Prod.fst).Nodup)
    (hvalues : ∀ entry ∈ entries, WellFormed entry.2) : WellFormed (.table origin entries)
  | tables {elements : List Entries}
    (hnames : ∀ entries ∈ elements, (entries.map Prod.fst).Nodup)
    (hvalues : ∀ entries ∈ elements, ∀ entry ∈ entries, WellFormed entry.2) :
    WellFormed (.tables elements)

namespace Entries

/-- Whether the names of a table are distinct and its values are well-formed. -/
structure WellFormed (entries : Entries) : Prop where
  names : (entries.map Prod.fst).Nodup
  values : ∀ entry ∈ entries, entry.2.WellFormed

variable {entries : Entries} {name : String} {v : Toml}

theorem WellFormed.nil : WellFormed [] := ⟨List.nodup_nil, fun _ h => absurd h List.not_mem_nil⟩

theorem WellFormed.get? (h : entries.WellFormed) (hname : entries.get? name = some v) :
    v.WellFormed :=
  h.values _ (mem_of_lookup hname)

theorem WellFormed.push (h : entries.WellFormed) (hname : entries.get? name = none)
    (hv : v.WellFormed) : (entries.push name v).WellFormed where
  names := nodup_names_append h.names hname v
  values entry hentry := by
    rcases List.mem_append.mp hentry with hold | hnew
    · exact h.values entry hold
    · rw [List.mem_singleton.mp hnew]
      exact hv

theorem WellFormed.replace (h : entries.WellFormed) (hv : v.WellFormed) :
    (entries.replace name v).WellFormed where
  names := by
    have hsame : (entries.replace name v).map Prod.fst = entries.map Prod.fst := by
      rw [Entries.replace, List.map_map]
      refine List.map_congr_left fun entry _ => ?_
      by_cases hname : entry.1 = name <;> simp [hname]
    rw [hsame]
    exact h.names
  values entry hentry := by
    obtain ⟨old, hold, rfl⟩ := List.mem_map.mp hentry
    split
    · exact hv
    · exact h.values old hold

theorem WellFormed.remove (h : entries.WellFormed) (name : String) :
    (entries.remove name).WellFormed where
  names := h.names.sublist (List.filter_sublist.map Prod.fst)
  values entry hentry := h.values entry (List.mem_filter.mp hentry).1

end Entries

theorem wellFormed_table {origin : Origin} {entries : Entries} :
    WellFormed (.table origin entries) ↔ entries.WellFormed := by
  constructor
  · rintro ⟨⟩
    exact ⟨‹_›, ‹_›⟩
  · exact fun h => .table h.names h.values

theorem wellFormed_tables {elements : List Entries} :
    WellFormed (.tables elements) ↔ ∀ entries ∈ elements, entries.WellFormed := by
  constructor
  · rintro ⟨⟩ entries hentries
    exact ⟨‹∀ entries ∈ elements, (entries.map Prod.fst).Nodup› entries hentries,
      ‹∀ entries ∈ elements, ∀ entry ∈ entries, _› entries hentries⟩
  · exact fun h => .tables (fun entries he => (h entries he).names)
      fun entries he => (h entries he).values

/-! ## Changes -/

/-- A change that keeps tables well-formed, and what it gives back has a property. -/
def Change.Keeps {α : Type} (P : α → Prop) (f : Change α) : Prop :=
  ∀ {origin entries entries' a}, entries.WellFormed → f origin entries = some (entries', a) →
    entries'.WellFormed ∧ P a

/-- A change keeps tables well-formed along a path if it does at its end. -/
theorem Change.Keeps.along {α : Type} {P : α → Prop} {f : Change α} (hf : f.Keeps P)
    (dotted : Bool) (path : List String) : (change dotted f path).Keeps P := by
  induction path with
  | nil => exact hf
  | cons name path ih =>
      intro origin entries entries' a hentries h
      rw [change] at h
      cases hname : entries.get? name with
      | none =>
          simp only [hname, Option.bind_eq_bind, Option.bind_eq_some_iff, Option.pure_def,
            Option.some.injEq, Prod.mk.injEq, Prod.exists] at h
          obtain ⟨inner, _, hinner, rfl, rfl⟩ := h
          obtain ⟨hwellFormed, ha⟩ := ih .nil hinner
          exact ⟨hentries.push hname (wellFormed_table.mpr hwellFormed), ha⟩
      | some v =>
          have hv := hentries.get? hname
          rw [hname] at h
          cases v with
          | string | integer | float | boolean | datetime | array => cases h
          | table inside inner =>
              dsimp only at h
              split at h
              · cases h
              · simp only [Option.bind_eq_bind, Option.bind_eq_some_iff, Option.pure_def,
                  Option.some.injEq, Prod.mk.injEq, Prod.exists] at h
                obtain ⟨inner', _, hinner, rfl, rfl⟩ := h
                obtain ⟨hwellFormed, ha⟩ := ih (wellFormed_table.mp hv) hinner
                exact ⟨hentries.replace (wellFormed_table.mpr hwellFormed), ha⟩
          | tables elements =>
              cases elements with
              | nil => cases h
              | cons latest earlier =>
                  simp only [Option.bind_eq_bind, Option.bind_eq_some_iff, Option.pure_def,
                    Option.some.injEq, Prod.mk.injEq, Prod.exists] at h
                  obtain ⟨latest', _, hlatest, rfl, rfl⟩ := h
                  obtain ⟨hfirst, hothers⟩ := List.forall_mem_cons.mp (wellFormed_tables.mp hv)
                  obtain ⟨hwellFormed, ha⟩ := ih hfirst hlatest
                  exact ⟨hentries.replace (wellFormed_tables.mpr
                    (List.forall_mem_cons.mpr ⟨hwellFormed, hothers⟩)), ha⟩

theorem insert_wellFormed {entries entries' : Entries} {origin : Origin} {path : List String}
    {name : String} {v : Toml} (hentries : entries.WellFormed) (hv : v.WellFormed)
    (h : insert entries origin path name v = some entries') : entries'.WellFormed := by
  simp only [insert, Option.bind_eq_bind, Option.bind_eq_some_iff, Option.pure_def,
    Option.some.injEq, Prod.exists] at h
  obtain ⟨_, _, hchange, rfl⟩ := h
  refine (Change.Keeps.along (P := fun _ => True) ?_ true path hentries hchange).1
  intro origin entries entries' a hentries hadd
  dsimp only at hadd
  split at hadd
  next hfree =>
    obtain ⟨rfl, rfl⟩ := hadd
    exact ⟨hentries.push (Option.isNone_iff_eq_none.mp (Bool.and_eq_true_iff.mp hfree).2) hv,
      trivial⟩
  next => cases hadd

/-! ## Lines of a document -/

/-- Whether every table of a document is well-formed while it is read. -/
structure Document.WellFormed (doc : Document) : Prop where
  root : doc.root.WellFormed
  current : doc.current.WellFormed

namespace Document

variable {doc doc' : Document} {path : List String} {name : String}

theorem WellFormed.empty : WellFormed {} := ⟨.nil, .nil⟩

theorem WellFormed.insert (h : doc.WellFormed) {v : Toml} (hv : v.WellFormed)
    (hinsert : doc.insert path name v = some doc') : doc'.WellFormed := by
  simp only [Document.insert, Option.bind_eq_bind, Option.bind_eq_some_iff, Option.pure_def,
    Option.some.injEq] at hinsert
  obtain ⟨current, hcurrent, rfl⟩ := hinsert
  exact ⟨h.root, insert_wellFormed h.current hv hcurrent⟩

theorem WellFormed.close (h : doc.WellFormed) {entries : Entries}
    (hclose : doc.close = some entries) : entries.WellFormed := by
  unfold Document.close at hclose
  split at hclose
  next =>
    obtain rfl := Option.some.inj hclose
    exact h.current
  next path name _ =>
    simp only [Option.bind_eq_bind, Option.bind_eq_some_iff, Option.pure_def, Option.some.injEq,
      Prod.exists] at hclose
    obtain ⟨_, _, hchange, rfl⟩ := hclose
    refine (Change.Keeps.along (P := fun _ => True) ?_ false path h.root hchange).1
    intro origin entries entries' a hentries hput
    dsimp only at hput
    split at hput
    next hname =>
      obtain ⟨rfl, rfl⟩ := hput
      exact ⟨hentries.push hname (wellFormed_table.mpr h.current), trivial⟩
    next elements hname =>
      obtain ⟨rfl, rfl⟩ := hput
      have helements := wellFormed_tables.mp (hentries.get? hname)
      exact ⟨hentries.replace (wellFormed_tables.mpr
        (List.forall_mem_cons.mpr ⟨h.current, helements⟩)), trivial⟩
    next => cases hput

theorem WellFormed.startTable (h : doc.WellFormed) (hstart : doc.startTable path name = some doc') :
    doc'.WellFormed := by
  simp only [Document.startTable, Option.bind_eq_bind, Option.bind_eq_some_iff, Option.pure_def,
    Option.some.injEq, Prod.exists] at hstart
  obtain ⟨root, hroot, root', current, hchange, rfl⟩ := hstart
  have hwellFormed : root'.WellFormed ∧ current.WellFormed := by
    refine Change.Keeps.along ?_ false path (h.close hroot) hchange
    intro origin entries entries' a hentries htake
    dsimp only at htake
    split at htake
    next =>
      obtain ⟨rfl, rfl⟩ := htake
      exact ⟨hentries, .nil⟩
    next inner hname =>
      obtain ⟨rfl, rfl⟩ := htake
      exact ⟨hentries.remove name, wellFormed_table.mp (hentries.get? hname)⟩
    next => cases htake
  exact ⟨hwellFormed.1, hwellFormed.2⟩

theorem WellFormed.startElement (h : doc.WellFormed)
    (hstart : doc.startElement path name = some doc') : doc'.WellFormed := by
  simp only [Document.startElement, Option.bind_eq_bind, Option.bind_eq_some_iff, Option.pure_def,
    Option.some.injEq, Prod.exists] at hstart
  obtain ⟨root, hroot, root', _, hchange, rfl⟩ := hstart
  refine ⟨(Change.Keeps.along (P := fun _ => True) ?_ false path (h.close hroot) hchange).1, .nil⟩
  intro origin entries entries' a hentries htake
  dsimp only at htake
  split at htake
  next hname =>
    obtain ⟨rfl, rfl⟩ := htake
    have hempty := wellFormed_tables.mpr fun _ h => absurd h List.not_mem_nil
    exact ⟨hentries.push hname hempty, trivial⟩
  next =>
    obtain ⟨rfl, rfl⟩ := htake
    exact ⟨hentries, trivial⟩
  next => cases htake

end Document

/-! ## Values that are read -/

namespace Scalar

variable {s rest : List Char} {v : Toml}

theorem boolean_wellFormed (h : boolean s = some (v, rest)) : v.WellFormed := by
  unfold boolean at h
  split at h <;> cases h <;> exact .boolean _

theorem datetime_wellFormed (h : datetime s = some (v, rest)) : v.WellFormed := by
  unfold datetime at h
  split at h
  · cases h
    exact .datetime
  · obtain ⟨_, -, hv⟩ := Option.map_eq_some_iff.mp h
    cases hv
    exact .datetime

theorem floatValue_wellFormed {negative : Bool} {x : Float} (h : floatValue negative x = some v) :
    v.WellFormed := by
  unfold floatValue at h
  split at h
  · cases h
    exact .float _
  · split at h <;> cases h
    exact .float _

theorem float_wellFormed (h : float s = some (v, rest)) : v.WellFormed := by
  unfold float at h
  dsimp only at h
  split at h
  · cases h
    exact .float _
  · obtain ⟨⟨whole, s⟩, -, h⟩ := Option.bind_eq_some_iff.mp h
    dsimp only at h
    split at h
    · obtain ⟨value, hvalue, h⟩ := Option.bind_eq_some_iff.mp h
      cases h
      exact floatValue_wellFormed hvalue
    · obtain ⟨⟨power, s⟩, -, h⟩ := Option.bind_eq_some_iff.mp h
      obtain ⟨value, hvalue, h⟩ := Option.bind_eq_some_iff.mp h
      cases h
      exact floatValue_wellFormed hvalue

theorem based_wellFormed {base : Nat} (hbase : 0 < base) {isDigit : Char → Bool}
    (h : based base isDigit s = some (v, rest)) : v.WellFormed := by
  obtain ⟨_, -, h⟩ := Option.bind_eq_some_iff.mp h
  obtain ⟨n, hn, h⟩ := Option.bind_eq_some_iff.mp h
  cases h
  obtain ⟨-, hlt⟩ := (Digits.valueBelow?_eq_some hbase (by decide)).mp hn
  exact .integer (by omega) (by omega)

theorem integer_wellFormed (h : integer s = some (v, rest)) : v.WellFormed := by
  unfold integer at h
  split at h
  · exact based_wellFormed (by decide) h
  · exact based_wellFormed (by decide) h
  · exact based_wellFormed (by decide) h
  · dsimp only at h
    obtain ⟨_, -, h⟩ := Option.bind_eq_some_iff.mp h
    split at h <;>
    · obtain ⟨n, hn, h⟩ := Option.bind_eq_some_iff.mp h
      cases h
      obtain ⟨-, hlt⟩ := (Digits.valueBelow?_eq_some (by decide) (by decide)).mp hn
      exact .integer (by omega) (by omega)

theorem read_wellFormed (h : Scalar.read s = some (v, rest)) : v.WellFormed := by
  simp only [Scalar.read, Option.orElse_eq_some] at h
  obtain h | ⟨-, h | ⟨-, h | ⟨-, h⟩⟩⟩ := h
  · exact boolean_wellFormed h
  · exact datetime_wellFormed h
  · exact float_wellFormed h
  · exact integer_wellFormed h

end Scalar

namespace Reader

/-- Whether the values that a reader gives are well-formed. -/
def WellFormed (value : ValueReader) : Prop :=
  ∀ {s v rest}, value s = some (v, rest) → v.WellFormed

variable {value : ValueReader}

theorem items_wellFormed (hvalue : WellFormed value) (whole bound : Nat) {seen : List Toml}
    (hseen : ∀ v ∈ seen, v.WellFormed) : WellFormed (items whole value bound seen) := by
  intro s v rest h
  fun_induction items whole value bound seen s with
  | case1 => cases h
  | case2 | case3 =>
      cases h
      exact .array (by simpa using hseen)
  | case4 bound seen s s' hcomma hnext ih =>
      obtain ⟨⟨item, s⟩, hitem, h⟩ := Option.bind_eq_some_iff.mp h
      exact ih item s (List.forall_mem_cons.mpr ⟨hvalue hitem, hseen⟩) h
  | case5 => cases h

theorem array_wellFormed (hvalue : WellFormed value) (bound : Nat) :
    WellFormed (array bound value) := by
  intro s v rest h
  unfold array at h
  split at h
  · cases h
    exact .array fun _ h => absurd h List.not_mem_nil
  · obtain ⟨⟨item, s⟩, hitem, h⟩ := Option.bind_eq_some_iff.mp h
    exact items_wellFormed hvalue bound bound (by simpa using hvalue hitem) h

theorem assignment_wellFormed (hvalue : WellFormed value) {bound : Nat} {s rest : List Char}
    {k : List String × String} {v : Toml} (h : assignment bound value s = some (k, v, rest)) :
    v.WellFormed := by
  obtain ⟨_, -, h⟩ := Option.bind_eq_some_iff.mp h
  obtain ⟨_, -, h⟩ := Option.bind_eq_some_iff.mp h
  obtain ⟨_, hv, h⟩ := Option.bind_eq_some_iff.mp h
  cases h
  exact hvalue hv

theorem assignments_wellFormed (hvalue : WellFormed value) (whole bound : Nat) {entries : Entries}
    (hentries : entries.WellFormed) : WellFormed (assignments whole value bound entries) := by
  intro s v rest h
  induction bound generalizing entries s with
  | zero => cases h
  | succ bound ih =>
      obtain ⟨⟨⟨path, last⟩, item, s⟩, hitem, h⟩ := Option.bind_eq_some_iff.mp h
      obtain ⟨entries', hinsert, h⟩ := Option.bind_eq_some_iff.mp h
      have hentries' := insert_wellFormed hentries (assignment_wellFormed hvalue hitem) hinsert
      split at h
      · cases h
        exact wellFormed_table.mpr hentries'
      · exact ih hentries' h
      · cases h

theorem braces_wellFormed (hvalue : WellFormed value) (bound : Nat) :
    WellFormed (braces bound value) := by
  intro s v rest h
  unfold braces at h
  split at h
  · cases h
    exact wellFormed_table.mpr .nil
  · exact assignments_wellFormed hvalue bound bound .nil h

theorem valueWith_wellFormed {deeper : Option ValueReader}
    (hdeeper : ∀ value ∈ deeper, WellFormed value) (bound : Nat) :
    WellFormed (valueWith bound deeper) := by
  intro s v rest h
  unfold valueWith at h
  split at h
  · obtain ⟨value, hvalue, h⟩ := Option.bind_eq_some_iff.mp h
    exact array_wellFormed (hdeeper value hvalue) bound h
  · obtain ⟨value, hvalue, h⟩ := Option.bind_eq_some_iff.mp h
    exact braces_wellFormed (hdeeper value hvalue) bound h
  · split at h
    · cases h
      exact .string _
    · exact Scalar.read_wellFormed h

theorem value_wellFormed (bound depth : Nat) : WellFormed (Reader.value bound depth) := by
  induction depth with
  | zero => exact valueWith_wellFormed (by simp) bound
  | succ depth ih =>
      refine valueWith_wellFormed (fun value h => ?_) bound
      obtain rfl := Option.some.inj h
      exact ih

/-! ## Whole documents -/

theorem header_wellFormed {bound : Nat} {doc doc' : Document} {s rest : List Char}
    (hdoc : doc.WellFormed) (h : header bound doc s = some (doc', rest)) : doc'.WellFormed := by
  unfold header at h
  split at h
  · simp only [Option.bind_eq_bind, Option.bind_eq_some_iff, Option.pure_def, Option.some.injEq,
      Prod.mk.injEq, Prod.exists] at h
    obtain ⟨_, _, _, -, _, -, _, -, _, -, started, hstart, rfl, rfl⟩ := h
    exact hdoc.startElement hstart
  · simp only [Option.bind_eq_bind, Option.bind_eq_some_iff, Option.pure_def, Option.some.injEq,
      Prod.mk.injEq, Prod.exists] at h
    obtain ⟨_, _, _, -, _, -, _, -, started, hstart, rfl, rfl⟩ := h
    exact hdoc.startTable hstart
  · cases h

theorem documentLines_wellFormed (whole bound : Nat) {doc doc' : Document} {s : List Char}
    (hdoc : doc.WellFormed) (h : documentLines whole bound doc s = some doc') :
    doc'.WellFormed := by
  induction bound generalizing doc s with
  | zero => cases h
  | succ bound ih =>
      unfold documentLines at h
      split at h
      · obtain rfl := Option.some.inj h
        exact hdoc
      · obtain ⟨⟨next, s⟩, hheader, h⟩ := Option.bind_eq_some_iff.mp h
        exact ih (header_wellFormed hdoc hheader) h
      · split at h
        · exact ih hdoc h
        · simp only [Option.bind_eq_bind, Option.bind_eq_some_iff, Prod.exists] at h
          obtain ⟨path, last, v, s, hv, _, -, next, hnext, h⟩ := h
          have hwellFormed := assignment_wellFormed (value_wellFormed whole maxDepth) hv
          exact ih (hdoc.insert hwellFormed hnext) h

end Reader

/-- What a text is read as is well-formed. -/
theorem parse?_wellFormed {text : List Char} {document : Entries}
    (h : parse? text = some document) : document.WellFormed := by
  obtain ⟨doc, hlines, hclose⟩ := Option.bind_eq_some_iff.mp h
  exact (Reader.documentLines_wellFormed _ _ .empty hlines).close hclose

end RemoteInput.Toml
