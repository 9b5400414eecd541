import RemoteInput.Text.Digits

/-!
# Network addresses

An IPv4 address is four decimal numbers below 256 with points between them.
None has a leading zero.  An IPv6 address is eight groups of up to four
hexadecimal digits with colons between them.  One run of groups that are zero may
be left out, which leaves two colons, and the last two groups may be written as an
IPv4 address.

The written form of an IPv6 address leaves out the longest run of at least two
zero groups, the first of several.  An IPv4 address inside an IPv6 one is written
with points only behind the prefix `::ffff:`.
-/

namespace RemoteInput

/-- An IPv4 address. -/
structure Ipv4 where
  a : UInt8
  b : UInt8
  c : UInt8
  d : UInt8
  deriving DecidableEq

/-- An IPv6 address. -/
structure Ipv6 where
  /-- The groups, first to last. -/
  groups : List UInt16
  /-- There are eight of them. -/
  length_eq : groups.length = 8
  deriving DecidableEq

/-- An address of either kind. -/
inductive IpAddress where
  | v4 (address : Ipv4)
  | v6 (address : Ipv6)
  deriving DecidableEq

/-- An address with a port. -/
structure SocketAddress where
  /-- The address. -/
  ip : IpAddress
  /-- The port. -/
  port : UInt16
  deriving DecidableEq

/-! ## Reading -/

/-- The two groups that an IPv4 address stands for. -/
def Ipv4.toGroups (x : Ipv4) : List UInt16 :=
  [x.a.toUInt16 * 256 + x.b.toUInt16, x.c.toUInt16 * 256 + x.d.toUInt16]

namespace Address

/-- Reads a number of an IPv4 address. -/
def readOctet (s : List Char) : Option (UInt8 × List Char) :=
  let digits := s.takeWhile Char.isDigit
  if digits.isEmpty || 3 < digits.length then none
  else if digits.head? = some '0' && 1 < digits.length then none
  else
    (Digits.valueBelow? 256 10 digits).map fun n => (UInt8.ofNat n, s.dropWhile Char.isDigit)

/-- Reads a point and a number of an IPv4 address. -/
def readNextOctet : List Char → Option (UInt8 × List Char)
  | '.' :: s => readOctet s
  | _ => none

/-- Reads an IPv4 address. -/
def readV4 (s : List Char) : Option (Ipv4 × List Char) := do
  let (a, s) ← readOctet s
  let (b, s) ← readNextOctet s
  let (c, s) ← readNextOctet s
  let (d, s) ← readNextOctet s
  return (⟨a, b, c, d⟩, s)

/-- Reads a group of an IPv6 address. -/
def readGroup (s : List Char) : Option (UInt16 × List Char) :=
  let digits := s.takeWhile Digits.isHex
  if digits.isEmpty || 4 < digits.length then none
  else some (UInt16.ofNat (Digits.value 16 digits), s.dropWhile Digits.isHex)

/-- Groups of an IPv6 address that were read. -/
structure Groups where
  /-- The groups. -/
  groups : List UInt16
  /-- Whether the last two were written as an IPv4 address. -/
  embedded : Bool
  /-- The text that follows. -/
  rest : List Char

/-- The text behind the colon that stands between two groups. -/
def skipColon : List Char → Option (List Char)
  | ':' :: s => some s
  | _ => none

/-- Reads at most a number of groups.  A colon stands before each but the first.  An IPv4 address
is read where it fits, and ends the groups. -/
def readGroups : Nat → Bool → List Char → Groups
  | 0, _, s => ⟨[], false, s⟩
  | limit + 1, first, s =>
    match (if first then some s else skipColon s) with
    | none => ⟨[], false, s⟩
    | some t =>
      match (if limit = 0 then none else readV4 t) with
      | some (x, t) => ⟨x.toGroups, true, t⟩
      | none =>
        match readGroup t with
        | none => ⟨[], false, s⟩
        | some (g, t) =>
          let more := readGroups limit false t
          { more with groups := g :: more.groups }

/-- The address of eight groups. -/
def ofGroups (groups : List UInt16) : Option Ipv6 :=
  if h : groups.length = 8 then some ⟨groups, h⟩ else none

/-- Reads an IPv6 address. -/
def readV6 (s : List Char) : Option (Ipv6 × List Char) :=
  let head := readGroups 8 true s
  if head.groups.length = 8 then (ofGroups head.groups).map (·, head.rest)
  else if head.embedded then none
  else
    match head.rest with
    | ':' :: ':' :: s =>
      let tail := readGroups (7 - head.groups.length) true s
      let zeros := List.replicate (8 - head.groups.length - tail.groups.length) 0
      (ofGroups (head.groups ++ zeros ++ tail.groups)).map (·, tail.rest)
    | _ => none

end Address

/-- The address that a text is the form of. -/
def IpAddress.parse? (text : String) : Option IpAddress :=
  let s := text.toList
  match Address.readV4 s with
  | some (x, rest) => if rest.isEmpty then some (.v4 x) else none
  | none =>
    match Address.readV6 s with
    | some (x, rest) => if rest.isEmpty then some (.v6 x) else none
    | none => none

/-! ## Writing -/

namespace Address

/-- A group of an IPv6 address. -/
def groupText (g : UInt16) : String := String.ofList (Nat.toDigits 16 g.toNat)

/-- Groups with colons between them. -/
def groupsText (groups : List UInt16) : String := ":".intercalate (groups.map groupText)

/-- The length of the run of zero groups that a list starts with. -/
def zeroRun (groups : List UInt16) : Nat := (groups.takeWhile (· == 0)).length

/-- The start and the length of the longest run of zero groups, the first of several. -/
def longestZeroRun (groups : List UInt16) : Nat × Nat :=
  (List.range groups.length).foldl (fun best start =>
    let run := zeroRun (groups.drop start)
    if best.2 < run then (start, run) else best) (0, 0)

end Address

/-- The written form of an IPv4 address. -/
def Ipv4.text (x : Ipv4) : String := s!"{x.a}.{x.b}.{x.c}.{x.d}"

/-- The IPv4 address that an IPv6 one stands for, if it has the prefix for it. -/
def Ipv6.mapped? (x : Ipv6) : Option Ipv4 :=
  match x.groups with
  | [0, 0, 0, 0, 0, 0xFFFF, g, h] =>
    some ⟨(g / 256).toUInt8, g.toUInt8, (h / 256).toUInt8, h.toUInt8⟩
  | _ => none

/-- The written form of an IPv6 address. -/
def Ipv6.text (x : Ipv6) : String :=
  match x.mapped? with
  | some v4 => "::ffff:" ++ v4.text
  | none =>
    let (start, length) := Address.longestZeroRun x.groups
    if length < 2 then Address.groupsText x.groups
    else
      Address.groupsText (x.groups.take start) ++ "::" ++
        Address.groupsText (x.groups.drop (start + length))

/-- The written form of an address. -/
def IpAddress.text : IpAddress → String
  | .v4 x => x.text
  | .v6 x => x.text

/-- Whether an address stands for every address of the machine. -/
def IpAddress.isUnspecified : IpAddress → Bool
  | .v4 x => x == ⟨0, 0, 0, 0⟩
  | .v6 x => x.groups.all (· == 0)

/-- Whether an address is an IPv6 one. -/
def IpAddress.isV6 : IpAddress → Bool
  | .v4 _ => false
  | .v6 _ => true

/-- The written form of an address with a port. -/
def SocketAddress.text (x : SocketAddress) : String :=
  match x.ip with
  | .v4 ip => s!"{ip.text}:{x.port}"
  | .v6 ip => s!"[{ip.text}]:{x.port}"

/-! ## Tests -/

example : IpAddress.parse? "127.0.0.1" = some (.v4 ⟨127, 0, 0, 1⟩) := by decide +kernel
example : IpAddress.parse? "01.2.3.4" = none ∧ IpAddress.parse? "1.2.3" = none := by decide +kernel
example : (IpAddress.parse? "1::").map IpAddress.text = some "1::" := by decide +kernel
example : (IpAddress.parse? "0:0:1:2:3:4:5:6").map IpAddress.text = some "::1:2:3:4:5:6" := by
  decide +kernel
example : (IpAddress.parse? "::ffff:1.2.3.4").map IpAddress.text = some "::ffff:1.2.3.4" := by
  decide +kernel
example : IpAddress.parse? "1:2:3:4::5:6:7:8" = none := by decide +kernel

end RemoteInput
