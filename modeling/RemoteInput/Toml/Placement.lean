import RemoteInput.Toml.Value

/-!
# Placing values in tables

A key is a path of names.  Placing a value walks along the path from a table and
makes the tables that are missing on the way.  The walk stops at a value that is
no table, and at a table that is complete.

A document is placed line by line.  The table of the latest header is kept apart
while its lines are read, and put in its place when the next header comes.  So a
table that a header writes down after one below it stands behind the tables
between the two.
-/

namespace RemoteInput.Toml

/-- A change of the table at the end of a path, which may give something back. -/
abbrev Change (α : Type) := Origin → Entries → Option (Entries × α)

/-- Changes the table at the end of a path.  The tables that are missing are made by a dotted key
or implied by a header.  A dotted key may not pass through a table that a header wrote down. -/
def change {α : Type} (dotted : Bool) (f : Change α) : List String → Change α
  | [], origin, entries => f origin entries
  | name :: path, _, entries =>
    match entries.get? name with
    | none => do
      let origin := if dotted then .dotted else .implied
      let (inner, a) ← change dotted f path origin []
      return (entries.push name (.table origin inner), a)
    | some (.table origin inner) =>
      if origin = .braces || (dotted && origin = .header) then none
      else do
        let (inner, a) ← change dotted f path origin inner
        return (entries.replace name (.table origin inner), a)
    | some (.tables elements) =>
      match elements with
      | [] => none
      | latest :: earlier => do
        let (latest, a) ← change dotted f path .header latest
        return (entries.replace name (.tables (latest :: earlier)), a)
    | some _ => none

/-- Adds a value under a key.  A key of several names ends in a table made by dotted keys, and such
a table takes no other values. -/
def insert (entries : Entries) (origin : Origin) (path : List String) (name : String)
    (value : Toml) : Option Entries := do
  let add : Change Unit := fun origin entries =>
    if decide (origin = .dotted) != path.isEmpty && (entries.get? name).isNone then
      some (entries.push name value, ())
    else none
  let (entries, _) ← change true add path origin entries
  return entries

/-! ## Documents -/

/-- A document of which some lines were read. -/
structure Document where
  /-- The table of the document, without that of the latest header. -/
  root : Entries := []
  /-- The table of the latest header. -/
  current : Entries := []
  /-- The path of the latest header, if there is one, with its last name apart. -/
  header : Option (List String × String) := none

namespace Document

/-- Adds a value to the table of the latest header. -/
def insert (doc : Document) (path : List String) (name : String) (value : Toml) :
    Option Document := do
  let current ← Toml.insert doc.current .header path name value
  return { doc with current }

/-- The table of the document, with that of the latest header in its place. -/
def close (doc : Document) : Option Entries :=
  match doc.header with
  | none => some doc.current
  | some (path, name) => do
    let put : Change Unit := fun _ entries =>
      match entries.get? name with
      | none => some (entries.push name (.table .header doc.current), ())
      | some (.tables elements) =>
        some (entries.replace name (.tables (doc.current :: elements)), ())
      | some _ => none
    let (root, _) ← change false put path .header doc.root
    return root

/-- Starts the table of a header.  A table that was only implied is taken up. -/
def startTable (doc : Document) (path : List String) (name : String) : Option Document := do
  let root ← doc.close
  let take : Change Entries := fun _ entries =>
    match entries.get? name with
    | none => some (entries, [])
    | some (.table .implied inner) => some (entries.remove name, inner)
    | some _ => none
  let (root, current) ← change false take path .header root
  return { root, current, header := some (path, name) }

/-- Starts a table of a header in double brackets. -/
def startElement (doc : Document) (path : List String) (name : String) : Option Document := do
  let root ← doc.close
  let take : Change Unit := fun _ entries =>
    match entries.get? name with
    | none => some (entries.push name (.tables []), ())
    | some (.tables _) => some (entries, ())
    | some _ => none
  let (root, _) ← change false take path .header root
  return { root, header := some (path, name) }

end Document

end RemoteInput.Toml
