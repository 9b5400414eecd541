/-!
# JSON values

A value as a message carries it.  Numbers are doubles, since nothing in a
message is read as anything else.  An object keeps its members in the order of
the text, repeated names included, and `Json.member?` reads the last member of
a name.
-/

namespace RemoteInput

/-- A JSON value. -/
inductive Json where
  | null
  | boolean (value : Bool)
  | number (value : Float)
  | string (text : String)
  | array (items : List Json)
  | object (members : List (String × Json))

/-- The members of an object, in the order of the text. -/
abbrev Json.Members := List (String × Json)

/-- The value of a member.  Of several members with one name the last counts. -/
def Json.Members.get? (members : Json.Members) (name : String) : Option Json :=
  members.foldl (fun found m => if m.1 = name then some m.2 else found) none

end RemoteInput
