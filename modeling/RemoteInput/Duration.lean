/-!
# Durations

A span of time in whole milliseconds.  It is written in the largest unit of
which it has at least one: seconds with up to three places, or milliseconds.
Zero is written in nanoseconds.
-/

namespace RemoteInput

/-- A span of time. -/
structure Duration where
  /-- Its length in milliseconds. -/
  millis : Nat
  deriving DecidableEq

namespace Duration

/-- A number of seconds. -/
def ofSeconds (n : Nat) : Duration := ⟨n * 1000⟩

/-- The places of a number of milliseconds below a thousand, without zeros at the end. -/
def places (millis : Nat) : String :=
  let hundreds := millis / 100
  let tens := millis / 10 % 10
  let ones := millis % 10
  if ones ≠ 0 then s!".{hundreds}{tens}{ones}"
  else if tens ≠ 0 then s!".{hundreds}{tens}"
  else if hundreds ≠ 0 then s!".{hundreds}"
  else ""

/-- A span of time with its unit. -/
def text (d : Duration) : String :=
  if d.millis = 0 then "0ns"
  else if d.millis < 1000 then s!"{d.millis}ms"
  else s!"{d.millis / 1000}{places (d.millis % 1000)}s"

/-! ## Tests -/

example : text ⟨0⟩ = "0ns" ∧ text ⟨50⟩ = "50ms" ∧ text ⟨1500⟩ = "1.5s" := by decide
example : text ⟨90061001⟩ = "90061.001s" ∧ text (ofSeconds 30) = "30s" := by decide
example : text ⟨1010⟩ = "1.01s" := by decide

end Duration

end RemoteInput
