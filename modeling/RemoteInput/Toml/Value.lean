/-!
# TOML values

A document is a table.  The entries of a table keep the order of the document,
and no two of them have one name.

How a table came about decides what a later line may add to it.  A table that a
header or a brace wrote down is complete, up to tables below it.  A table that
exists only because something below it was named can still be written down
later, once.  A table that dotted keys made can only be extended by dotted keys.

Dates and times are recognised and not kept.
-/

namespace RemoteInput

namespace Toml

/-- How a table came about. -/
inductive Origin where
  /-- By a header, or as the table of the document. -/
  | header
  /-- By the header of a table below it. -/
  | implied
  /-- By a dotted key. -/
  | dotted
  /-- By braces. -/
  | braces
  deriving DecidableEq

end Toml

/-- A TOML value. -/
inductive Toml where
  | string (text : String)
  | integer (value : Int)
  | float (value : Float)
  | boolean (value : Bool)
  | datetime
  | array (items : List Toml)
  | table (origin : Toml.Origin) (entries : List (String × Toml))
  /-- The tables of the headers in double brackets, latest first. -/
  | tables (elements : List (List (String × Toml)))

namespace Toml

/-- The entries of a table, in the order of the document. -/
abbrev Entries := List (String × Toml)

namespace Entries

/-- The value of a name. -/
def get? (entries : Entries) (name : String) : Option Toml := List.lookup name entries

/-- The entries with one more at the end. -/
def push (entries : Entries) (name : String) (value : Toml) : Entries := entries ++ [(name, value)]

/-- The entries with the value of a name replaced. -/
def replace (entries : Entries) (name : String) (value : Toml) : Entries :=
  entries.map fun entry => if entry.1 = name then (name, value) else entry

/-- The entries without a name. -/
def remove (entries : Entries) (name : String) : Entries := entries.filter (·.1 ≠ name)

end Entries

end Toml

end RemoteInput
