import RemoteInput.Text.Ascii
import RemoteInput.Text.Digits

/-!
# Lines of a stream

A sender ends each message with a line feed.  The bytes of a stream arrive in
chunks that know nothing of lines: a chunk may hold several lines, or a part of
one.  `Buffer` is the part of the current line that arrived so far.

A line longer than the limit is given up.  Its bytes are no longer kept once
they pass the limit by more than one, and the rest of the line is dropped as it
arrives, so the buffer stays bounded whatever a sender sends.  The one byte of
slack is for a carriage return, which counts only if no line feed follows.

A chunk gives all its lines at once (`Buffer.feed`).  `Buffer.readLine` gives
one line and leaves the rest of its chunk for the next call.  `lines` is the same
framing said of a whole stream at once.
-/

namespace RemoteInput.Framing

/-- A line of a stream. -/
inductive Line where
  /-- A line within the limit, without its end. -/
  | text (bytes : Bytes)
  /-- A line past the limit. -/
  | tooLong
  deriving DecidableEq

/-- The part of the current line that arrived so far. -/
structure Buffer where
  /-- The bytes that are kept. -/
  kept : Bytes
  /-- Whether the line was given up. -/
  overflowed : Bool
  deriving DecidableEq

/-- The buffer at the start of a line. -/
def Buffer.empty : Buffer := ⟨[], false⟩

/-- The most bytes that a buffer keeps: one more than the limit, if there is such a number. -/
def capacity (limit : UInt64) : Nat := min (limit.toNat + 1) (2 ^ 64 - 1)

/-- Takes in bytes of the current line. -/
def Buffer.absorb (limit : UInt64) (buffer : Buffer) (bytes : Bytes) : Buffer :=
  if buffer.overflowed then buffer
  else if capacity limit < buffer.kept.length + bytes.length then ⟨[], true⟩
  else ⟨buffer.kept ++ bytes, false⟩

/-- Bytes without a carriage return at their end. -/
def dropReturn (bytes : Bytes) : Bytes :=
  if bytes.getLast? = some Ascii.carriageReturn then bytes.dropLast else bytes

/-- The line of a buffer, once the line is over. -/
def Buffer.finish (limit : UInt64) (buffer : Buffer) : Line :=
  let bytes := dropReturn buffer.kept
  if buffer.overflowed || limit.toNat < bytes.length then .tooLong else .text bytes

/-- Whether nothing of the current line arrived. -/
def Buffer.isEmpty (buffer : Buffer) : Bool := !buffer.overflowed && buffer.kept.isEmpty

/-- Takes in the rest of a chunk, with the bytes since the last line feed in `piece` and the lines
so far in `seen`, both latest first. -/
def Buffer.scan (limit : UInt64) (seen : List Line) (buffer : Buffer) (piece : Bytes) :
    Bytes → List Line × Buffer
  | [] => (seen.reverse, buffer.absorb limit piece.reverse)
  | b :: s =>
    if b = Ascii.newline then
      Buffer.scan limit ((buffer.absorb limit piece.reverse).finish limit :: seen) .empty [] s
    else Buffer.scan limit seen buffer (b :: piece) s

/-- Takes in a chunk.  Gives the lines that it ends and the part of a line that it leaves. -/
def Buffer.feed (limit : UInt64) (buffer : Buffer) (chunk : Bytes) : List Line × Buffer :=
  buffer.scan limit [] [] chunk

/-- The last line of a stream that is over.  It needs no line feed, but at least one byte. -/
def Buffer.close (limit : UInt64) (buffer : Buffer) : Option Line :=
  if buffer.isEmpty then none else some (buffer.finish limit)

/-- The lines of a stream that arrives in chunks and then ends. -/
def Buffer.readAll (limit : UInt64) (buffer : Buffer) : List Bytes → List Line
  | [] => (buffer.close limit).toList
  | chunk :: chunks =>
    let (lines, buffer) := buffer.feed limit chunk
    lines ++ buffer.readAll limit chunks

/-! ## One line at a time -/

/-- Reads the next line of a stream that arrives in chunks and then ends, after the part of it in
the buffer.  Gives the line, or nothing at the end of the stream, and the chunks after it. -/
def Buffer.readLine (limit : UInt64) (buffer : Buffer) : List Bytes → Option Line × List Bytes
  | [] => (buffer.close limit, [])
  | chunk :: chunks =>
    let buffer := buffer.absorb limit (chunk.takeWhile (· != Ascii.newline))
    match chunk.dropWhile (· != Ascii.newline) with
    | [] => buffer.readLine limit chunks
    | _ :: rest => (some (buffer.finish limit), rest :: chunks)

/-- Reads a line a number of times in a row. -/
def readLines (limit : UInt64) : Nat → List Bytes → List (Option Line)
  | 0, _ => []
  | n + 1, chunks =>
    let (line, rest) := Buffer.empty.readLine limit chunks
    line :: readLines limit n rest

/-! ## The framing of a whole stream -/

/-- The pieces between the line feeds.  There is one more than there are line feeds. -/
def pieces : Bytes → List Bytes
  | [] => [[]]
  | b :: s =>
    if b = Ascii.newline then [] :: pieces s
    else
      match pieces s with
      | [] => [[b]]
      | p :: ps => (b :: p) :: ps

/-- The line that a piece stands for. -/
def lineOf (limit : UInt64) (piece : Bytes) : Line :=
  let bytes := dropReturn piece
  if bytes.length ≤ limit.toNat then .text bytes else .tooLong

/-- The pieces of a stream, less the last one if it is empty. -/
def linePieces (stream : Bytes) : List Bytes :=
  let ps := pieces stream
  if ps.getLast? = some [] then ps.dropLast else ps

/-- The lines of a stream. -/
def lines (limit : UInt64) (stream : Bytes) : List Line := (linePieces stream).map (lineOf limit)

/-! ## Tests -/

example : lines 2 [0x61, 0x0A, 0x61, 0x62, 0x0D, 0x0A, 0x61, 0x62, 0x63] =
    [.text [0x61], .text [0x61, 0x62], .tooLong] := by decide
example : lines 0 [0x0D, 0x0A, 0x0D] = [.text [], .text []] := by decide

end RemoteInput.Framing
