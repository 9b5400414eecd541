import RemoteInput.Decimal.Text
import RemoteInput.Log
import RemoteInput.Text.Ascii
import RemoteInput.Text.Quoted

/-!
# Records as lines

A record is written on one line: its level, its message and its fields in order.
A text is quoted, so that no field can end the line or look like another one.

A user names the least level that is shown, in either case.  A name that is no
level shows errors only.
-/

namespace RemoteInput.Log

/-- The level that a user names. -/
def Level.ofSetting (text : String) : Level :=
  (Level.all.find? fun level => level.name == asciiUpper text).getD .error

/-- Whether a record is shown when the least level that is shown is given. -/
def Level.shows (least level : Level) : Bool :=
  Level.all.idxOf level ≤ Level.all.idxOf least

/-- The value of a field. -/
def Value.written : Value → String
  | .count n => toString n
  | .text s => Quoted.write s
  | .real x => String.ofList (Decimal.writeFloat .message x)

/-- A record on one line. -/
def Record.line (r : Record) : String :=
  " ".intercalate
    (r.level.name :: r.message :: r.fields.map fun (name, value) => name ++ "=" ++ value.written)

/-! ## Tests -/

example : (Level.all.filter (Level.info.shows ·)) = [.error, .warn, .info] := by decide
example : Level.ofSetting "debug" = .debug ∧ Level.ofSetting "loud" = .error := by decide +kernel
example :
    Record.line ⟨.debug, "event dispatched", [("line", .count 2), ("event", .text "SYSTEM")]⟩ =
      "DEBUG event dispatched line=2 event=\"SYSTEM\"" := by decide +kernel

end RemoteInput.Log
