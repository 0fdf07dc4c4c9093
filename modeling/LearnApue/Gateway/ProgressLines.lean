import LearnApue.Foundation.Lines
import LearnApue.Gateway.ProgressParser

set_option autoImplicit false

/-!
# Gateway: progress records line by line (`progress_parser.c`)

What the fragments of a stream make of the parser is what the lines of the stream say,
however the stream was cut.  `gw_progress_parser_consume` is first taken down to the
array `line` and its stale bytes (`ProgressBuffer`), which the byte lists of
`gwProgressParserConsume` refine (`consumeBuffer_parser`); the records then come from
the lines alone (`consumeBuffer_lines`).
-/

namespace LearnApue.Gateway

open LearnApue.Foundation

/-! ## The array -/

/-- `gw_progress_parser` with all of `line`: the bytes from `line_length` on are left from
earlier lines. -/
structure ProgressBuffer where
  line : Bytes
  lineLength : Nat
  current : GwWorkerProgress
  size : line.length = gwProgressLineCap
  room : lineLength < gwProgressLineCap

/-- `gw_progress_parser_init`: `memset`. -/
def ProgressBuffer.init : ProgressBuffer :=
  ⟨List.replicate gwProgressLineCap nul, 0, .zero, List.length_replicate, by decide⟩

/-- The bytes that `parse_line` leaves: it overwrites the first separator. -/
def separatorCut (line : Bytes) : Bytes :=
  if byte '=' ∈ cString line then line.set ((cString line).idxOf (byte '=')) nul else line

theorem separatorCut_length (line : Bytes) : (separatorCut line).length = line.length := by
  unfold separatorCut
  split
  · exact List.length_set
  · rfl

/-- What a call of `gw_progress_parser_consume` works on. -/
structure BufferCall where
  buffer : ProgressBuffer
  progress : GwWorkerProgress
  completed : Bool

/-- The length of the line without the carriage return before its end. -/
def ProgressBuffer.strippedLength (buffer : ProgressBuffer) : Nat :=
  if 0 < buffer.lineLength ∧ buffer.line[buffer.lineLength - 1]? = some carriageReturn then
    buffer.lineLength - 1
  else buffer.lineLength

/-- The loop body for a newline: the terminator is stored and `parse_line` reads the C string
at `line`. -/
def BufferCall.endLine (strtod : Strtod) (call : BufferCall) : BufferCall :=
  let line := call.buffer.line.set call.buffer.strippedLength nul
  let parsed := parseLine strtod call.buffer.current (cString line)
  { buffer :=
      { line := separatorCut line
        lineLength := 0
        current := parsed.current
        size := by rw [separatorCut_length, List.length_set, call.buffer.size]
        room := by decide }
    progress := parsed.completed.getD call.progress
    completed := call.completed || parsed.completed.isSome }

/-- The loop of `gw_progress_parser_consume`. -/
def consumeBuffer (strtod : Strtod) (call : BufferCall) :
    Bytes → BufferCall × Except GwError Unit
  | [] => (call, .ok ())
  | b :: rest =>
      if b = newline then consumeBuffer strtod (call.endLine strtod) rest
      else if h : call.buffer.lineLength + 1 ≥ gwProgressLineCap then
        ({ call with buffer := { call.buffer with lineLength := 0, room := by decide } },
          .error progressLineError)
      else
        consumeBuffer strtod
          { call with
              buffer :=
                { call.buffer with
                  line := call.buffer.line.set call.buffer.lineLength b
                  lineLength := call.buffer.lineLength + 1
                  size := by rw [List.length_set, call.buffer.size]
                  room := Nat.lt_of_not_ge h } } rest

/-- The parser without the stale bytes. -/
def ProgressBuffer.parser (buffer : ProgressBuffer) : GwProgressParser where
  line := buffer.line.take buffer.lineLength
  current := buffer.current
  fits := by
    rw [List.length_take]
    exact lt_of_le_of_lt (Nat.min_le_left _ _) buffer.room

/-- The call without the stale bytes. -/
def BufferCall.call (call : BufferCall) : ProgressCall :=
  ⟨call.buffer.parser, call.progress, call.completed⟩

section Refinement

variable {strtod : Strtod}

theorem ProgressBuffer.parser_length (buffer : ProgressBuffer) :
    buffer.parser.line.length = buffer.lineLength := by
  have hsize := buffer.size
  have hroom := buffer.room
  simp only [parser, List.length_take]
  omega

/-- The terminator hides what stands after it. -/
theorem cString_set_nul {line : Bytes} {length : Nat} (h : length < line.length) :
    cString (line.set length nul) = cString (line.take length) := by
  rw [List.set_eq_take_append_cons_drop, if_pos h]
  unfold cString
  rw [List.takeWhile_append, List.takeWhile_cons_of_neg (by simp), List.append_nil]
  split
  · rename_i hall
    exact (List.IsPrefix.eq_of_length (List.takeWhile_prefix _) hall).symm
  · rfl

/-- The stripped line as `parse_line` reads it. -/
theorem ProgressBuffer.cString_terminated (buffer : ProgressBuffer) :
    cString (buffer.line.set buffer.strippedLength nul) = progressLine buffer.parser.line := by
  have hsize := buffer.size
  have hroom := buffer.room
  have hlast : buffer.parser.line.getLast? = some carriageReturn ↔
      0 < buffer.lineLength ∧ buffer.line[buffer.lineLength - 1]? = some carriageReturn := by
    cases hlength : buffer.lineLength with
    | zero => simp [parser, hlength]
    | succ n =>
      have hget : n < buffer.line.length := by omega
      simp [parser, hlength, List.getLast?_take, hget]
  unfold progressLine strippedLength
  by_cases hcr : buffer.parser.line.getLast? = some carriageReturn
  · rw [if_pos hcr, if_pos (hlast.mp hcr), cString_set_nul (by omega), parser,
      List.dropLast_take (by omega)]
  · rw [if_neg hcr, if_neg (fun h => hcr (hlast.mpr h)), cString_set_nul (by omega), parser]

theorem BufferCall.endLine_call (call : BufferCall) :
    (call.endLine strtod).call = call.call.endLine strtod := by
  simp only [BufferCall.call, endLine, ProgressCall.endLine, ProgressBuffer.parser,
    call.buffer.cString_terminated, List.take_zero]

/-- The loop over the array does what the loop over byte lists does. -/
theorem consumeBuffer_call (data : Bytes) (call : BufferCall) :
    ((consumeBuffer strtod call data).1.call, (consumeBuffer strtod call data).2) =
      consumeProgress strtod call.call data := by
  induction data generalizing call with
  | nil => rfl
  | cons b rest ih =>
    have hlength : call.call.parser.line.length = call.buffer.lineLength :=
      call.buffer.parser_length
    unfold consumeBuffer consumeProgress
    by_cases hb : b = newline
    · rw [if_pos hb, if_pos hb, ih, call.endLine_call]
    · rw [if_neg hb, if_neg hb]
      by_cases hfull : call.buffer.lineLength + 1 ≥ gwProgressLineCap
      · rw [dif_pos hfull, dif_pos (by rw [hlength]; exact hfull)]
        simp only [BufferCall.call, ProgressBuffer.parser, List.take_zero]
      · rw [dif_neg hfull, dif_neg (by rw [hlength]; exact hfull), ih]
        have hsize := call.buffer.size
        have hstored : (call.buffer.line.set call.buffer.lineLength b).take
            (call.buffer.lineLength + 1) = call.buffer.line.take call.buffer.lineLength ++ [b] := by
          rw [List.take_add_one, List.take_set_of_le (Nat.le_refl _),
            List.getElem?_set_self (by omega), Option.toList_some]
        simp only [BufferCall.call, ProgressBuffer.parser, hstored]

end Refinement

/-! ## Lines and records -/

/-- The key and the value of a complete line: without the carriage return before its newline,
cut at the first NUL, and split at the first `=`. -/
def lineField (line : Bytes) : Option (Bytes × Bytes) :=
  let text := progressLine line
  let key := text.takeWhile fun b => b != byte '='
  if byte '=' ∈ text then some (key, text.drop (key.length + 1)) else none

/-- The value a line gives a key, when it parses. -/
def valueIn {α : Type} (key : Bytes) (parse : Bytes → Option α) (line : Bytes) : Option α :=
  (lineField line).bind fun (found, value) => if found = key then parse value else none

/-- The last value of a key that parses. -/
def lastValue {α : Type} (key : Bytes) (parse : Bytes → Option α) (lines : List Bytes) :
    Option α :=
  (lines.filterMap (valueIn key parse)).getLast?

/-- A value truncated to its buffer. -/
def truncatedValue (capacity : Nat) (h : 0 < capacity) (value : Bytes) :
    Option (Text capacity) :=
  some (.truncate capacity h value)

/-- The record that some lines make. -/
def recordOf (strtod : Strtod) (lines : List Bytes) : GwWorkerProgress where
  frame := (lastValue (ascii "frame") parseU64 lines).getD 0
  fps := (lastValue (ascii "fps") (parseDoubleValue strtod) lines).getD .zero
  bitrate := (lastValue (ascii "bitrate") (truncatedValue bitrateCap bitrateCap_pos) lines).getD
    GwWorkerProgress.zero.bitrate
  outTimeUs := (lastValue (ascii "out_time_us") parseI64 lines).getD 0
  dropFrames := (lastValue (ascii "drop_frames") parseU64 lines).getD 0
  speed := (lastValue (ascii "speed") (parseDoubleValue strtod) lines).getD .zero
  status := (lastValue (ascii "progress") (truncatedValue statusCap statusCap_pos) lines).getD
    GwWorkerProgress.zero.status

/-- A line that completes a record. -/
def completesRecord (line : Bytes) : Bool :=
  (lineField line).any fun (key, _) => key = ascii "progress"

/-- The lines since the last completed record, and the records completed so far. -/
structure RecordScan where
  since : List Bytes
  records : List GwWorkerProgress

/-- One more complete line. -/
def RecordScan.next (strtod : Strtod) (scan : RecordScan) (line : Bytes) : RecordScan :=
  if completesRecord line then
    ⟨[], scan.records ++ [recordOf strtod (scan.since ++ [line])]⟩
  else ⟨scan.since ++ [line], scan.records⟩

/-- The scan of the complete lines of a stream. -/
def recordScan (strtod : Strtod) (stream : Bytes) : RecordScan :=
  (Lines.complete newline stream).foldl (RecordScan.next strtod) ⟨[], []⟩

/-- The records a stream completes. -/
def recordsOf (strtod : Strtod) (stream : Bytes) : List GwWorkerProgress :=
  (recordScan strtod stream).records

section Lines

variable {strtod : Strtod} {stream : Bytes}

/-- One more line gives a key its value, or leaves the last one. -/
theorem lastValue_concat {α : Type} (key : Bytes) (parse : Bytes → Option α)
    (lines : List Bytes) (line : Bytes) :
    lastValue key parse (lines ++ [line]) =
      (valueIn key parse line).or (lastValue key parse lines) := by
  cases h : valueIn key parse line with
  | none => simp [lastValue, h]
  | some value => simp [lastValue, h]

theorem valueIn_of_none {α : Type} {line : Bytes} (h : lineField line = none) (key : Bytes)
    (parse : Bytes → Option α) : valueIn key parse line = none := by
  rw [valueIn, h, Option.bind_none]

theorem valueIn_of_some {α : Type} {line found value : Bytes}
    (h : lineField line = some (found, value)) (key : Bytes) (parse : Bytes → Option α) :
    valueIn key parse line = if found = key then parse value else none := by
  rw [valueIn, h, Option.bind_some]

/-- `parse_line` adds a line to the record, or completes it with the line. -/
theorem parseLine_recordOf (lines : List Bytes) (line : Bytes) :
    parseLine strtod (recordOf strtod lines) (progressLine line) =
      if completesRecord line then ⟨.zero, some (recordOf strtod (lines ++ [line]))⟩
      else ⟨recordOf strtod (lines ++ [line]), none⟩ := by
  unfold parseLine
  by_cases hseparator : byte '=' ∈ progressLine line
  · have hfield : lineField line = some
        ((progressLine line).takeWhile fun b => b != byte '=',
          (progressLine line).drop
            (((progressLine line).takeWhile fun b => b != byte '=').length + 1)) := by
      simp only [lineField, if_pos hseparator]
    rw [if_neg (not_not_intro hseparator)]
    dsimp only
    revert hfield
    generalize (progressLine line).takeWhile (fun b => b != byte '=') = key
    generalize (progressLine line).drop (key.length + 1) = value
    intro hfield
    simp only [recordOf, lastValue_concat, valueIn_of_some hfield, completesRecord, hfield,
      Option.any_some]
    -- one case for each key
    by_cases hframe : key = ascii "frame"
    · subst hframe
      simp +decide
    by_cases hfps : key = ascii "fps"
    · subst hfps
      simp +decide
    by_cases hbitrate : key = ascii "bitrate"
    · subst hbitrate
      simp +decide [truncatedValue]
    by_cases htime : key = ascii "out_time_us"
    · subst htime
      simp +decide
    by_cases hdropped : key = ascii "drop_frames"
    · subst hdropped
      simp +decide
    by_cases hspeed : key = ascii "speed"
    · subst hspeed
      simp +decide
    by_cases hprogress : key = ascii "progress"
    · subst hprogress
      simp +decide [truncatedValue]
    · simp [hframe, hfps, hbitrate, htime, hdropped, hspeed, hprogress]
  · have hfield : lineField line = none := by
      simp only [lineField, if_neg hseparator]
    rw [if_pos hseparator]
    simp only [recordOf, lastValue_concat, valueIn_of_none hfield, completesRecord, hfield,
      Option.any_none, Option.none_or, Bool.false_eq_true, if_false]

/-! ## The loop -/

/-- The parser after a stream: the unfinished line, and the record that the lines since the
last completed record make. -/
structure Fed (strtod : Strtod) (stream : Bytes) (parser : GwProgressParser) : Prop where
  line : parser.line = Lines.unfinished newline stream
  current : parser.current = recordOf strtod (recordScan strtod stream).since

/-- What a call made of the next piece of a stream. -/
structure LinesRead (strtod : Strtod) (stream data : Bytes) (records : List GwWorkerProgress)
    (call : ProgressCall) (result : ProgressCall × Except GwError Unit) : Prop where
  ok : result.2 = .ok ()
  fed : Fed strtod (stream ++ data) result.1.parser
  grown : recordsOf strtod (stream ++ data) = recordsOf strtod stream ++ records
  completed : result.1.completed = (call.completed || !records.isEmpty)
  progress : result.1.progress = records.getLast?.getD call.progress

theorem fed_init : Fed strtod [] gwProgressParserInit := ⟨rfl, rfl⟩

theorem recordScan_newline (stream : Bytes) :
    recordScan strtod (stream ++ [newline]) =
      (recordScan strtod stream).next strtod (Lines.unfinished newline stream) := by
  rw [recordScan, Lines.complete_concat_self, List.foldl_append]
  rfl

theorem recordScan_byte {b : Byte} (h : b ≠ newline) (stream : Bytes) :
    recordScan strtod (stream ++ [b]) = recordScan strtod stream := by
  rw [recordScan, Lines.complete_concat h, recordScan]

/-- A newline completes the unfinished line. -/
theorem ProgressCall.endLine_lines {call : ProgressCall} (hfed : Fed strtod stream call.parser) :
    ∃ records, LinesRead strtod stream [newline] records call (call.endLine strtod, .ok ()) := by
  have hscan := @recordScan_newline strtod stream
  have hparsed : parseLine strtod call.parser.current (progressLine call.parser.line) =
      if completesRecord (Lines.unfinished newline stream) then
        ⟨.zero, some (recordOf strtod
          ((recordScan strtod stream).since ++ [Lines.unfinished newline stream]))⟩
      else ⟨recordOf strtod
          ((recordScan strtod stream).since ++ [Lines.unfinished newline stream]), none⟩ := by
    rw [hfed.current, hfed.line, parseLine_recordOf]
  have hunfinished := @Lines.unfinished_concat_self Byte _ newline stream
  unfold RecordScan.next at hscan
  cases hcompletes : completesRecord (Lines.unfinished newline stream) with
  | true =>
    rw [hcompletes] at hparsed hscan
    refine ⟨[recordOf strtod ((recordScan strtod stream).since ++
      [Lines.unfinished newline stream])], rfl, ⟨hunfinished.symm, ?_⟩, ?_, ?_, ?_⟩
    · rw [hscan, endLine, hparsed]
      rfl
    · rw [recordsOf, hscan]
      rfl
    · rw [endLine, hparsed]
      rfl
    · rw [endLine, hparsed]
      rfl
  | false =>
    rw [hcompletes] at hparsed hscan
    refine ⟨[], rfl, ⟨hunfinished.symm, ?_⟩, ?_, ?_, ?_⟩
    · rw [hscan, endLine, hparsed]
      rfl
    · rw [recordsOf, hscan, List.append_nil]
      rfl
    · rw [endLine, hparsed]
      rfl
    · rw [endLine, hparsed]
      rfl

/-- Any other byte extends the unfinished line. -/
theorem ProgressCall.byte_lines {call : ProgressCall} (hfed : Fed strtod stream call.parser)
    {b : Byte} (h : b ≠ newline)
    (hroom : (call.parser.line ++ [b]).length < gwProgressLineCap) :
    LinesRead strtod stream [b] [] call
      ({ call with parser := ⟨call.parser.line ++ [b], call.parser.current, hroom⟩ }, .ok ()) := by
  have hscan : recordScan strtod (stream ++ [b]) = recordScan strtod stream :=
    recordScan_byte h stream
  refine ⟨rfl, ⟨?_, ?_⟩, ?_, ?_, rfl⟩
  · dsimp only
    rw [Lines.unfinished_concat h, hfed.line]
  · rw [hscan]
    exact hfed.current
  · rw [recordsOf, hscan, recordsOf, List.append_nil]
  · exact (Bool.or_false _).symm

theorem LinesRead.append {front back : Bytes} {records records' : List GwWorkerProgress}
    {call middle : ProgressCall} {result : ProgressCall × Except GwError Unit}
    (h : LinesRead strtod stream front records call (middle, .ok ()))
    (h' : LinesRead strtod (stream ++ front) back records' middle result) :
    LinesRead strtod stream (front ++ back) (records ++ records') call result := by
  refine ⟨h'.ok, ?_, ?_, ?_, ?_⟩
  · rw [← List.append_assoc]
    exact h'.fed
  · rw [← List.append_assoc, h'.grown, h.grown, List.append_assoc]
  · rw [h'.completed, h.completed]
    cases records <;> cases records' <;> simp
  · rw [h'.progress, h.progress, List.getLast?_append]
    cases records'.getLast? <;> rfl

/-- The loop reads the lines of a stream with bounded lines. -/
theorem consumeProgress_lines (data : Bytes) {call : ProgressCall}
    (hfed : Fed strtod stream call.parser)
    (hshort : Lines.Within newline (gwProgressLineCap - 1) (stream ++ data)) :
    ∃ records, LinesRead strtod stream data records call (consumeProgress strtod call data) := by
  induction data generalizing stream call with
  | nil =>
    rw [List.append_nil] at hshort
    exact ⟨[], rfl, by rw [List.append_nil]; exact hfed, by simp, by simp [consumeProgress],
      rfl⟩
  | cons b rest ih =>
    have hcons : stream ++ b :: rest = stream ++ [b] ++ rest := by simp
    rw [hcons] at hshort
    unfold consumeProgress
    by_cases hb : b = newline
    · subst hb
      rw [if_pos rfl]
      obtain ⟨records, hline⟩ := call.endLine_lines hfed
      obtain ⟨records', hrest⟩ := ih hline.fed hshort
      exact ⟨records ++ records', hline.append hrest⟩
    · have hlength := hshort.of_append.unfinished_length
      rw [Lines.unfinished_concat hb, ← hfed.line, List.length_append,
        List.length_singleton] at hlength
      have hroom : ¬ call.parser.line.length + 1 ≥ gwProgressLineCap := by
        unfold gwProgressLineCap at hlength ⊢
        omega
      rw [if_neg hb, dif_neg hroom]
      have hbyte := ProgressCall.byte_lines hfed hb (by
        rw [List.length_append, List.length_singleton]
        omega)
      obtain ⟨records, hrest⟩ := ih hbyte.fed hshort
      exact ⟨[] ++ records, hbyte.append hrest⟩

/-! ## Any fragments -/

/-- `gw_progress_parser_consume` on the array. -/
def ProgressBuffer.consume (strtod : Strtod) (buffer : ProgressBuffer) (data : Bytes)
    (progress : GwWorkerProgress) : BufferCall × Except GwError Unit :=
  consumeBuffer strtod ⟨buffer, progress, false⟩ data

/-- The fragments of some calls, in order; each call also has what the caller's `progress`
held. -/
def streamOf (calls : List (Bytes × GwWorkerProgress)) : Bytes := calls.flatMap Prod.fst

/-- The parser after some calls. -/
def ProgressBuffer.after (strtod : Strtod) (buffer : ProgressBuffer) :
    List (Bytes × GwWorkerProgress) → ProgressBuffer
  | [] => buffer
  | (data, progress) :: calls => (buffer.consume strtod data progress).1.buffer.after strtod calls

theorem ProgressBuffer.consume_lines {buffer : ProgressBuffer} {data : Bytes}
    {progress : GwWorkerProgress} (hfed : Fed strtod stream buffer.parser)
    (hshort : Lines.Within newline (gwProgressLineCap - 1) (stream ++ data)) :
    ∃ records, LinesRead strtod stream data records ⟨buffer.parser, progress, false⟩
      ((buffer.consume strtod data progress).1.call, (buffer.consume strtod data progress).2) := by
  have hcall := @consumeBuffer_call strtod data ⟨buffer, progress, false⟩
  rw [consume, hcall]
  exact consumeProgress_lines data hfed hshort

theorem ProgressBuffer.after_lines {buffer : ProgressBuffer} (hfed : Fed strtod stream buffer.parser)
    (calls : List (Bytes × GwWorkerProgress))
    (hshort : Lines.Within newline (gwProgressLineCap - 1) (stream ++ streamOf calls)) :
    Fed strtod (stream ++ streamOf calls) (buffer.after strtod calls).parser := by
  induction calls generalizing stream buffer with
  | nil => simpa [streamOf, after] using hfed
  | cons call rest ih =>
    obtain ⟨data, progress⟩ := call
    have hsplit : stream ++ streamOf ((data, progress) :: rest) =
        stream ++ data ++ streamOf rest := by
      simp [streamOf]
    rw [hsplit] at hshort ⊢
    obtain ⟨records, hread⟩ := consume_lines hfed (hshort.of_append)
    exact ih hread.fed hshort

/-- However a stream with bounded lines is cut, every call succeeds, and it hands out the last
of the records that the lines ended in its fragment complete. -/
theorem consumeBuffer_lines (strtod : Strtod) {before after : List (Bytes × GwWorkerProgress)}
    {fragment : Bytes} {progress : GwWorkerProgress}
    (hshort : Lines.Within newline (gwProgressLineCap - 1)
      (streamOf (before ++ (fragment, progress) :: after))) :
    ∃ records,
      recordsOf strtod (streamOf before ++ fragment) =
        recordsOf strtod (streamOf before) ++ records ∧
      ((ProgressBuffer.init.after strtod before).consume strtod fragment progress).2 = .ok () ∧
      ((ProgressBuffer.init.after strtod before).consume strtod fragment progress).1.completed =
        !records.isEmpty ∧
      ((ProgressBuffer.init.after strtod before).consume strtod fragment progress).1.progress =
        records.getLast?.getD progress := by
  have hsplit : streamOf (before ++ (fragment, progress) :: after) =
      streamOf before ++ fragment ++ streamOf after := by
    simp [streamOf]
  rw [hsplit] at hshort
  have hinit : Fed strtod [] ProgressBuffer.init.parser := fed_init
  have hfed := ProgressBuffer.after_lines hinit before hshort.of_append.of_append
  obtain ⟨records, hread⟩ := ProgressBuffer.consume_lines hfed hshort.of_append
  exact ⟨records, hread.grown, hread.ok, hread.completed, hread.progress⟩

theorem consumeBuffer_lines_cut_key :
    let before := [(ascii "frame=12\r\nprog", GwWorkerProgress.zero)]
    let fragment := ascii "ress=continue\n"
    ∃ records,
      recordsOf noNumber (streamOf before ++ fragment) =
        recordsOf noNumber (streamOf before) ++ records ∧
      ((ProgressBuffer.init.after noNumber before).consume noNumber fragment .zero).2 = .ok () ∧
      ((ProgressBuffer.init.after noNumber before).consume noNumber fragment .zero).1.completed =
        !records.isEmpty ∧
      ((ProgressBuffer.init.after noNumber before).consume noNumber fragment .zero).1.progress =
        records.getLast?.getD .zero := by
  intro before fragment
  have hshort : Lines.Within newline (gwProgressLineCap - 1)
      (streamOf (before ++ (fragment, GwWorkerProgress.zero) :: [])) := by
    unfold Lines.Within
    decide +kernel
  exact consumeBuffer_lines noNumber hshort

end Lines

end LearnApue.Gateway
