import RemoteInput.Connection.Framing

/-!
# Framing does not depend on the chunks

The state of the reader inside a line is a function of the bytes of the line so
far.  `Buffer.holding` is that function.  Taking in more bytes of the line keeps
it (`Buffer.absorb_holding`), and at the end of the line it gives what the whole
line stands for (`Buffer.finish_holding`).  So the reader can be followed by the
bytes alone: `linesAfter` frames the rest of a stream after the first bytes of a
line, and knows of no chunks and no buffer.

Both readers are `linesAfter` (`Buffer.readAll_holding`, `Buffer.readLine_holding`),
and `linesAfter` is the framing of the whole stream (`linesAfter_eq_map`).

While a stream goes on, only the lines that end within it are known.  These are
`endedLines`, a function of the bytes so far like the buffer (`Buffer.feed_holding`).
They are the lines of the stream cut after its last line feed
(`endedLines_eq_linesAfter`).

The buffer has one byte of slack past the limit, for a carriage return.  The
largest limit leaves no room for it, so there the reader and the framing part at
a line of `2^64` bytes, which no machine can hold.  `Addressable` excludes it.
-/

namespace RemoteInput.Framing

variable {limit : UInt64}

/-! ## The buffer as a function of the line -/

/-- The buffer after some bytes of a line. -/
def Buffer.holding (limit : UInt64) (piece : Bytes) : Buffer :=
  if capacity limit < piece.length then ⟨[], true⟩ else ⟨piece, false⟩

theorem Buffer.holding_nil (limit : UInt64) : Buffer.holding limit [] = .empty := by
  simp [Buffer.holding, Buffer.empty]

/-- More bytes of a line move the buffer to the one that holds them too. -/
theorem Buffer.absorb_holding (piece bytes : Bytes) :
    (Buffer.holding limit piece).absorb limit bytes = Buffer.holding limit (piece ++ bytes) := by
  unfold Buffer.holding Buffer.absorb
  by_cases hpast : capacity limit < piece.length
  · have hlonger : capacity limit < (piece ++ bytes).length := by
      rw [List.length_append]
      omega
    simp only [hpast, hlonger, if_true]
  · simp only [hpast, if_false, Bool.false_eq_true, List.length_append]

theorem Buffer.isEmpty_holding (piece : Bytes) :
    (Buffer.holding limit piece).isEmpty = piece.isEmpty := by
  unfold Buffer.holding Buffer.isEmpty
  split
  next hpast =>
      have hne : piece ≠ [] := List.ne_nil_of_length_pos (by omega)
      simp [List.isEmpty_eq_false_iff.mpr hne]
  next hfits => simp

/-- The line that the reader makes of a piece. -/
def framed (limit : UInt64) (piece : Bytes) : Line := (Buffer.holding limit piece).finish limit

theorem length_le_length_dropReturn (bytes : Bytes) :
    bytes.length ≤ (dropReturn bytes).length + 1 := by
  unfold dropReturn
  split
  next hreturn => simp only [List.length_dropLast]; omega
  next hother => omega

/-- What the buffer makes of a piece is what the piece stands for. -/
theorem Buffer.finish_holding {piece : Bytes}
    (h : limit.toNat + 1 < 2 ^ 64 ∨ piece.length < 2 ^ 64) :
    framed limit piece = lineOf limit piece := by
  have hshort := length_le_length_dropReturn piece
  unfold framed Buffer.holding Buffer.finish lineOf
  by_cases hpast : capacity limit < piece.length
  · have hlong : ¬ (dropReturn piece).length ≤ limit.toNat := by
      unfold capacity at hpast
      omega
    simp [hpast, hlong]
  · by_cases hlong : limit.toNat < (dropReturn piece).length
    · have hnot : ¬ (dropReturn piece).length ≤ limit.toNat := by omega
      simp [hpast, hlong, hnot]
    · have hle : (dropReturn piece).length ≤ limit.toNat := by omega
      simp [hpast, hlong, hle]

/-! ## Up to the next line feed -/

theorem notMem_takeWhile_newline (bytes : Bytes) :
    Ascii.newline ∉ bytes.takeWhile (· != Ascii.newline) := by
  intro hmem
  have hall := List.all_takeWhile (p := (· != Ascii.newline)) (l := bytes)
  rw [List.all_eq_true] at hall
  simpa using hall _ hmem

theorem eq_newline_of_dropWhile {bytes rest : Bytes} {b : UInt8}
    (h : bytes.dropWhile (· != Ascii.newline) = b :: rest) : b = Ascii.newline := by
  have hhead := List.head?_dropWhile_not (· != Ascii.newline) bytes
  simpa [h] using hhead

/-! ## Framing byte by byte -/

/-- The lines of a stream, given the bytes of its first line that came before. -/
def linesAfter (limit : UInt64) (piece : Bytes) : Bytes → List Line
  | [] => if piece.isEmpty then [] else [framed limit piece]
  | b :: s =>
    if b = Ascii.newline then framed limit piece :: linesAfter limit [] s
    else linesAfter limit (piece ++ [b]) s

/-- The lines that end within a stream, given the bytes of its first line that came before, and the
bytes of the line that does not. -/
def endedLines (limit : UInt64) (piece : Bytes) : Bytes → List Line × Bytes
  | [] => ([], piece)
  | b :: s =>
    if b = Ascii.newline then
      let (lines, rest) := endedLines limit [] s
      (framed limit piece :: lines, rest)
    else endedLines limit (piece ++ [b]) s

theorem endedLines_append (limit : UInt64) (piece s t : Bytes) :
    endedLines limit piece (s ++ t) =
      ((endedLines limit piece s).1 ++ (endedLines limit (endedLines limit piece s).2 t).1,
        (endedLines limit (endedLines limit piece s).2 t).2) := by
  induction s generalizing piece with
  | nil => rfl
  | cons b s ih =>
      by_cases hb : b = Ascii.newline
      · simp only [List.cons_append, endedLines, hb, if_true, ih]
      · simp only [List.cons_append, endedLines, hb, if_false, ih]

/-- The lines of a stream are those that end in a first part of it and those of what is left. -/
theorem linesAfter_ended (limit : UInt64) (piece s t : Bytes) :
    linesAfter limit piece (s ++ t) =
      (endedLines limit piece s).1 ++ linesAfter limit (endedLines limit piece s).2 t := by
  induction s generalizing piece with
  | nil => rfl
  | cons b s ih =>
      by_cases hb : b = Ascii.newline
      · simp only [List.cons_append, linesAfter, endedLines, hb, if_true, ih]
      · simp only [List.cons_append, linesAfter, endedLines, hb, if_false, ih]

/-- Without a line feed no line ends. -/
theorem endedLines_of_notMem (limit : UInt64) {bytes : Bytes} (hline : Ascii.newline ∉ bytes)
    (piece : Bytes) : endedLines limit piece bytes = ([], piece ++ bytes) := by
  induction bytes generalizing piece with
  | nil => simp [endedLines]
  | cons b bytes ih =>
      rw [List.mem_cons, not_or] at hline
      have hb : b ≠ Ascii.newline := Ne.symm hline.1
      rw [endedLines, if_neg hb, ih hline.2, List.append_assoc, List.singleton_append]

/-- Bytes without a line feed go on with the first line. -/
theorem linesAfter_append (limit : UInt64) {bytes : Bytes} (hline : Ascii.newline ∉ bytes)
    (piece s : Bytes) :
    linesAfter limit piece (bytes ++ s) = linesAfter limit (piece ++ bytes) s := by
  rw [linesAfter_ended, endedLines_of_notMem limit hline, List.nil_append]

theorem close_holding (piece : Bytes) :
    ((Buffer.holding limit piece).close limit).toList = linesAfter limit piece [] := by
  unfold Buffer.close
  rw [Buffer.isEmpty_holding, linesAfter]
  split <;> rfl

/-- A piece within the limit is its own line, unless it ends in a carriage return. -/
theorem framed_eq_text {piece : Bytes} (hlength : piece.length ≤ limit.toNat)
    (hreturn : Ascii.carriageReturn ∉ piece) : framed limit piece = .text piece := by
  have hfits : ¬ capacity limit < piece.length := by
    have hlimit := UInt64.toNat_lt limit
    rw [capacity]
    omega
  have hkeep : dropReturn piece = piece := by
    rw [dropReturn, if_neg]
    intro hlast
    exact hreturn (List.mem_of_getLast? hlast)
  have hshort : ¬ limit.toNat < piece.length := by omega
  simp [framed, Buffer.holding, Buffer.finish, hfits, hkeep, hshort]

/-- Pieces with a line feed after each are the lines of a stream. -/
theorem linesAfter_flatMap (limit : UInt64) {ps : List Bytes} (h : ∀ p ∈ ps, Ascii.newline ∉ p) :
    linesAfter limit [] (ps.flatMap (· ++ [Ascii.newline])) = ps.map (framed limit) := by
  induction ps with
  | nil => rfl
  | cons p ps ih =>
      have hrest := ih fun q hq => h q (List.mem_cons_of_mem _ hq)
      rw [List.flatMap_cons, List.append_assoc,
        linesAfter_append limit (h p (List.mem_cons_self ..)), List.singleton_append, linesAfter,
        if_pos rfl, hrest]
      rfl

/-! ## How many lines there are -/

/-- The number of lines of a stream: one for each line feed, and one more if anything comes after
the last one. -/
def lineCount (stream : Bytes) : Nat :=
  stream.count Ascii.newline +
    if stream = [] ∨ stream.getLast? = some Ascii.newline then 0 else 1

/-- A line feed ends one line, and what follows it are the other ones. -/
theorem lineCount_newline {piece : Bytes} (h : Ascii.newline ∉ piece) (s : Bytes) :
    lineCount (piece ++ Ascii.newline :: s) = lineCount s + 1 := by
  unfold lineCount
  rw [List.count_append, List.count_eq_zero.mpr h, List.count_cons_self]
  cases s with
  | nil => simp
  | cons b s =>
      have hlast : (piece ++ Ascii.newline :: b :: s).getLast? = (b :: s).getLast? := by
        rw [List.getLast?_append, List.getLast?_cons_cons, List.getLast?_cons, Option.some_or]
      simp only [hlast, List.append_eq_nil_iff, List.cons_ne_nil, and_false, false_or]
      omega

/-- Framing byte by byte gives as many lines as there are. -/
theorem length_linesAfter (limit : UInt64) {piece : Bytes} (h : Ascii.newline ∉ piece)
    (s : Bytes) : (linesAfter limit piece s).length = lineCount (piece ++ s) := by
  induction s generalizing piece with
  | nil =>
      have hlast : piece.getLast? ≠ some Ascii.newline := fun hlast =>
        h (List.mem_of_getLast? hlast)
      rw [List.append_nil, lineCount, List.count_eq_zero.mpr h, linesAfter]
      cases piece with
      | nil => rfl
      | cons b piece => simp [hlast]
  | cons b s ih =>
      by_cases hb : b = Ascii.newline
      · rw [linesAfter, if_pos hb, List.length_cons, ih (List.not_mem_nil), hb,
          lineCount_newline h, List.nil_append]
      · have hpiece : Ascii.newline ∉ piece ++ [b] := by
          simp [h, Ne.symm hb]
        rw [linesAfter, if_neg hb, ih hpiece, List.append_assoc, List.singleton_append]

/-! ## A stream without its last line -/

/-- A stream cut after its last line feed. -/
def wholeLines (stream : Bytes) : Bytes :=
  (stream.reverse.dropWhile (· != Ascii.newline)).reverse

/-- What is cut off has no line feed. -/
theorem wholeLines_append (stream : Bytes) :
    ∃ tail, stream = wholeLines stream ++ tail ∧ Ascii.newline ∉ tail := by
  refine ⟨(stream.reverse.takeWhile (· != Ascii.newline)).reverse, ?_, ?_⟩
  · rw [wholeLines, ← List.reverse_append, List.takeWhile_append_dropWhile, List.reverse_reverse]
  · exact fun hmem => notMem_takeWhile_newline _ (List.mem_reverse.mp hmem)

/-- What is kept is empty or ends in a line feed. -/
theorem wholeLines_eq (stream : Bytes) :
    wholeLines stream = [] ∨ ∃ front, wholeLines stream = front ++ [Ascii.newline] := by
  unfold wholeLines
  cases hdrop : stream.reverse.dropWhile (· != Ascii.newline) with
  | nil => exact .inl rfl
  | cons b front =>
      exact .inr ⟨front.reverse, by rw [eq_newline_of_dropWhile hdrop, List.reverse_cons]⟩

/-- Nothing is cut off from a stream that is empty or ends in a line feed. -/
theorem wholeLines_of_newline {stream : Bytes}
    (h : stream = [] ∨ stream.getLast? = some Ascii.newline) : wholeLines stream = stream := by
  obtain rfl | hlast := h
  · rfl
  · obtain ⟨front, rfl⟩ := List.getLast?_eq_some_iff.mp hlast
    simp [wholeLines]

/-- What is kept ends all of its lines. -/
theorem endedLines_wholeLines (limit : UInt64) (stream : Bytes) :
    endedLines limit [] (wholeLines stream) = (linesAfter limit [] (wholeLines stream), []) := by
  have hover : (endedLines limit [] (wholeLines stream)).2 = [] := by
    obtain hnil | ⟨front, hfront⟩ := wholeLines_eq stream
    · rw [hnil, endedLines]
    · rw [hfront, endedLines_append]
      simp [endedLines]
  have hlines := linesAfter_ended limit [] (wholeLines stream) []
  rw [List.append_nil, hover, linesAfter, List.isEmpty_nil, if_pos rfl, List.append_nil] at hlines
  exact Prod.ext hlines.symm hover

/-- The lines that end within a stream are the lines of the stream cut after its last line feed. -/
theorem endedLines_eq_linesAfter (limit : UInt64) (stream : Bytes) :
    (endedLines limit [] stream).1 = linesAfter limit [] (wholeLines stream) := by
  obtain ⟨tail, hstream, htail⟩ := wholeLines_append stream
  conv => lhs; rw [hstream]
  rw [endedLines_append, endedLines_wholeLines, endedLines_of_notMem limit htail, List.append_nil]

/-- What comes after the last line feed starts a line of its own. -/
theorem linesAfter_wholeLines (limit : UInt64) (stream t : Bytes) :
    linesAfter limit [] (wholeLines stream ++ t) =
      linesAfter limit [] (wholeLines stream) ++ linesAfter limit [] t := by
  rw [linesAfter_ended, endedLines_wholeLines]

/-! ## The readers frame byte by byte -/

theorem Buffer.scan_holding (seen : List Line) (held piece s : Bytes) :
    (Buffer.holding limit held).scan limit seen piece s =
      (seen.reverse ++ (endedLines limit (held ++ piece.reverse) s).1,
        Buffer.holding limit (endedLines limit (held ++ piece.reverse) s).2) := by
  induction s generalizing seen held piece with
  | nil => rw [Buffer.scan, Buffer.absorb_holding, endedLines, List.append_nil]
  | cons b s ih =>
      by_cases hb : b = Ascii.newline
      · have hnext := ih (framed limit (held ++ piece.reverse) :: seen) [] []
        rw [Buffer.holding_nil] at hnext
        simp only [Buffer.scan, hb, if_true, Buffer.absorb_holding, endedLines]
        simpa [framed] using hnext
      · simp only [Buffer.scan, hb, if_false, endedLines]
        rw [ih seen held (b :: piece), List.reverse_cons, List.append_assoc]

/-- A chunk gives the lines that end within it and leaves the bytes of the line that does not. -/
theorem Buffer.feed_holding (piece chunk : Bytes) :
    (Buffer.holding limit piece).feed limit chunk =
      ((endedLines limit piece chunk).1,
        Buffer.holding limit (endedLines limit piece chunk).2) := by
  unfold Buffer.feed
  rw [Buffer.scan_holding]
  simp

/-- Reading chunk by chunk frames byte by byte. -/
theorem Buffer.readAll_holding (chunks : List Bytes) (piece : Bytes) :
    (Buffer.holding limit piece).readAll limit chunks =
      linesAfter limit piece chunks.flatten := by
  induction chunks generalizing piece with
  | nil => exact close_holding piece
  | cons chunk chunks ih =>
      simp only [Buffer.readAll, Buffer.feed_holding, ih]
      rw [List.flatten_cons, linesAfter_ended]

/-- Reading chunk by chunk from the start frames the whole stream byte by byte. -/
theorem Buffer.readAll_empty (limit : UInt64) (chunks : List Bytes) :
    Buffer.empty.readAll limit chunks = linesAfter limit [] chunks.flatten := by
  rw [← Buffer.holding_nil limit, Buffer.readAll_holding]

/-- The lines of a stream do not depend on the chunks in which it arrives. -/
theorem Buffer.readAll_congr {chunks chunks' : List Bytes} (h : chunks.flatten = chunks'.flatten) :
    Buffer.empty.readAll limit chunks = Buffer.empty.readAll limit chunks' := by
  rw [Buffer.readAll_empty, Buffer.readAll_empty, h]

/-- One call of the line reader takes the first of the lines. -/
theorem Buffer.readLine_holding (limit : UInt64) (chunks : List Bytes) (piece : Bytes) :
    ∃ line rest, (Buffer.holding limit piece).readLine limit chunks = (line, rest) ∧
      linesAfter limit piece chunks.flatten =
        line.toList ++ linesAfter limit [] rest.flatten ∧ (line = none → rest = []) := by
  induction chunks generalizing piece with
  | nil =>
      refine ⟨_, [], rfl, ?_, fun _ => rfl⟩
      rw [close_holding]
      simp [linesAfter]
  | cons chunk chunks ih =>
      have hsplit := linesAfter_append limit (notMem_takeWhile_newline chunk) piece
        (chunk.dropWhile (· != Ascii.newline) ++ chunks.flatten)
      rw [← List.append_assoc, List.takeWhile_append_dropWhile] at hsplit
      -- The chunk ends inside the line, or the line ends inside the chunk.
      rw [List.flatten_cons, hsplit, Buffer.readLine, Buffer.absorb_holding]
      cases hdrop : chunk.dropWhile (· != Ascii.newline) with
      | nil => exact ih _
      | cons b rest =>
          refine ⟨_, _, rfl, ?_, fun hnone => absurd hnone (by simp)⟩
          simp [eq_newline_of_dropWhile hdrop, linesAfter, framed]

/-- Calls of the line reader give the lines in order, and after the last line nothing. -/
theorem readLines_eq_take (n : Nat) (chunks : List Bytes) :
    readLines limit n chunks =
      ((linesAfter limit [] chunks.flatten).map some ++ List.replicate n none).take n := by
  induction n generalizing chunks with
  | zero => rfl
  | succ n ih =>
      obtain ⟨line, rest, hread, hlines, hend⟩ :=
        Buffer.readLine_holding limit chunks []
      rw [Buffer.holding_nil] at hread
      simp only [readLines, hread, hlines]
      cases line with
      | none =>
          rw [hend rfl, ih]
          simp [linesAfter, List.replicate_succ]
      | some line =>
          rw [ih]
          simp [List.replicate_succ', ← List.append_assoc, List.take_append]

/-! ## Against the pieces of the whole stream -/

/-- Pieces less the last one if it is empty. -/
def dropEmptyLast (ps : List Bytes) : List Bytes :=
  if ps.getLast? = some [] then ps.dropLast else ps

theorem pieces_ne_nil (s : Bytes) : pieces s ≠ [] := by
  induction s with
  | nil => simp [pieces]
  | cons b s ih =>
      rw [pieces]
      split
      · simp
      · split <;> simp

/-- A line feed parts the pieces before it from those after it. -/
theorem pieces_newline (s t : Bytes) :
    pieces (s ++ Ascii.newline :: t) = pieces s ++ pieces t := by
  induction s with
  | nil => simp [pieces]
  | cons b s ih =>
      obtain ⟨p, ps, hps⟩ := List.exists_cons_of_ne_nil (pieces_ne_nil s)
      by_cases hb : b = Ascii.newline
      · simp [pieces, hb, ih]
      · simp [pieces, hb, ih, hps]

/-- Bytes without a line feed are one piece. -/
theorem pieces_of_notMem {piece : Bytes} (h : Ascii.newline ∉ piece) : pieces piece = [piece] := by
  induction piece with
  | nil => rfl
  | cons b piece ih =>
      rw [List.mem_cons, not_or] at h
      have hb : b ≠ Ascii.newline := Ne.symm h.1
      simp [pieces, hb, ih h.2]

theorem dropEmptyLast_cons (p : Bytes) {ps : List Bytes} (h : ps ≠ []) :
    dropEmptyLast (p :: ps) = p :: dropEmptyLast ps := by
  obtain ⟨q, qs, rfl⟩ := List.exists_cons_of_ne_nil h
  unfold dropEmptyLast
  rw [List.getLast?_cons_cons, List.dropLast_cons_cons]
  split <;> rfl

/-- The one piece that is no line is the empty one after the last line feed. -/
theorem mem_linePieces_or_nil {stream piece : Bytes} (h : piece ∈ pieces stream) :
    piece ∈ linePieces stream ∨ piece = [] := by
  unfold linePieces
  dsimp only
  split
  next hlast =>
      obtain ⟨ps, hps⟩ := List.getLast?_eq_some_iff.mp hlast
      rw [hps, List.dropLast_concat]
      rwa [hps, List.mem_append, List.mem_singleton] at h
  next => exact .inl h

theorem modifyHead_nil_append (ps : List Bytes) : ps.modifyHead ([] ++ ·) = ps := by
  cases ps <;> rfl

/-- Framing byte by byte gives one line for each piece. -/
theorem linesAfter_eq_map (piece s : Bytes) :
    linesAfter limit piece s =
      (dropEmptyLast ((pieces s).modifyHead (piece ++ ·))).map (framed limit) := by
  induction s generalizing piece with
  | nil =>
      cases piece with
      | nil => rfl
      | cons b piece => simp [linesAfter, pieces, dropEmptyLast]
  | cons b s ih =>
      by_cases hb : b = Ascii.newline
      · simp only [linesAfter, pieces, hb, if_true, List.modifyHead_cons, List.append_nil]
        rw [dropEmptyLast_cons piece (pieces_ne_nil s), List.map_cons, ih, modifyHead_nil_append]
      · obtain ⟨p, ps, hps⟩ := List.exists_cons_of_ne_nil (pieces_ne_nil s)
        simp only [linesAfter, pieces, hb, if_false, ih, hps, List.modifyHead_cons]
        simp

/-- Whether the machine can count the bytes of every line, or the limit leaves room for the byte of
slack, so that it need not. -/
def Addressable (limit : UInt64) (stream : Bytes) : Prop :=
  limit.toNat + 1 < 2 ^ 64 ∨ ∀ piece ∈ pieces stream, piece.length < 2 ^ 64

/-- A first part of a stream that is cut after its last line feed asks no more of the machine. -/
theorem Addressable.wholeLines {front back : Bytes} (h : Addressable limit (front ++ back)) :
    Addressable limit (wholeLines front) := by
  refine h.imp_right fun hall piece hmem => ?_
  have hshort : ([] : Bytes).length < 2 ^ 64 := by decide
  obtain ⟨tail, hfront, -⟩ := wholeLines_append front
  obtain hnil | ⟨f, hf⟩ := wholeLines_eq front
  · rw [hnil, pieces, List.mem_singleton] at hmem
    rwa [hmem]
  · rw [hf, pieces_newline, pieces, List.mem_append, List.mem_singleton] at hmem
    rcases hmem with hmem | rfl
    · refine hall piece ?_
      rw [hfront, hf, List.append_assoc, List.append_assoc, List.singleton_append, pieces_newline]
      exact List.mem_append_left _ hmem
    · exact hshort

/-- Framing byte by byte from the start of a stream is the framing of the whole stream. -/
theorem linesAfter_eq_lines {stream : Bytes} (h : Addressable limit stream) :
    linesAfter limit [] stream = lines limit stream := by
  rw [linesAfter_eq_map, modifyHead_nil_append, lines]
  refine List.map_congr_left fun piece hmem => Buffer.finish_holding ?_
  refine h.imp id fun hall => hall piece ?_
  unfold dropEmptyLast at hmem
  split at hmem
  · exact List.dropLast_subset _ hmem
  · exact hmem

/-- Framing does not depend on how the bytes arrive.  However a stream is cut into chunks, its lines
are those of the whole stream, read chunk by chunk or line by line.  After the last line there is
nothing.  Two ways of cutting it never differ. -/
theorem readAll_eq_lines (chunks : List Bytes) (h : Addressable limit chunks.flatten) :
    Buffer.empty.readAll limit chunks = lines limit chunks.flatten ∧
      (∀ n, readLines limit n chunks =
        ((lines limit chunks.flatten).map some ++ List.replicate n none).take n) ∧
      ∀ chunks' : List Bytes, chunks'.flatten = chunks.flatten →
        Buffer.empty.readAll limit chunks' = Buffer.empty.readAll limit chunks ∧
          ∀ n, readLines limit n chunks' = readLines limit n chunks := by
  refine ⟨?_, fun n => ?_, fun chunks' hsame => ⟨Buffer.readAll_congr hsame, fun n => ?_⟩⟩
  · rw [← Buffer.holding_nil limit, Buffer.readAll_holding, linesAfter_eq_lines h]
  · rw [readLines_eq_take, linesAfter_eq_lines h]
  · rw [readLines_eq_take, readLines_eq_take, hsame]

/-- A carriage return that arrives before its line feed, at the limit. -/
theorem readAll_eq_lines_slack :
    Addressable 2 [[0x61, 0x62], [0x0D], [0x0A, 0x61, 0x62, 0x63]].flatten ∧
      Buffer.empty.readAll 2 [[0x61, 0x62], [0x0D], [0x0A, 0x61, 0x62, 0x63]] =
        [.text [0x61, 0x62], .tooLong] :=
  have h : Addressable 2 [[0x61, 0x62], [0x0D], [0x0A, 0x61, 0x62, 0x63]].flatten :=
    Or.inl (by decide)
  ⟨h, (readAll_eq_lines _ h).1.trans (by decide)⟩

end RemoteInput.Framing
