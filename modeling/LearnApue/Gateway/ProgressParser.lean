import LearnApue.Gateway.Config

set_option autoImplicit false

/-!
# Gateway: worker progress records (`progress_parser.h`, `progress_parser.c`)

The incremental parser of `ffmpeg -progress` output: bytes are assembled into
lines, `key=value` lines fill the current record, and a `progress=` line hands the
record out.  A finite `double` is a sign and a magnitude; what `strtod` makes of a
text is a parameter.
-/

namespace LearnApue.Gateway

open LearnApue.Foundation

/-! ## Records -/

/-- A finite `double`. -/
structure FiniteDouble where
  negative : Bool
  magnitude : NNRat
  deriving DecidableEq

/-- The zero. -/
def FiniteDouble.zero : FiniteDouble := ⟨false, 0⟩

/-- A `double`. -/
inductive CDouble where
  | finite (value : FiniteDouble)
  | infinite (negative : Bool)
  | nan
  deriving DecidableEq

/-- The zero that `memset` leaves. -/
def CDouble.zero : CDouble := .finite .zero

/-- What `strtod` reports: the value when it is finite, the unread rest, whether
anything was read and whether `errno` was set. -/
structure StrtodResult where
  value : Option FiniteDouble
  rest : Bytes
  converted : Bool
  failed : Bool

/-- `strtod`. -/
abbrev Strtod : Type := Bytes → StrtodResult

/-- A `strtod` for texts without a number. -/
def noNumber : Strtod := fun text => ⟨some .zero, text, false, false⟩

/-- `sizeof(gw_worker_progress.bitrate)`. -/
def bitrateCap : Nat := 32
/-- `sizeof(gw_worker_progress.status)`. -/
def statusCap : Nat := 16
/-- `GW_PROGRESS_LINE_CAP`. -/
def gwProgressLineCap : Nat := 1024

theorem bitrateCap_pos : 0 < bitrateCap := by decide

theorem statusCap_pos : 0 < statusCap := by decide

theorem gwProgressLineCap_pos : 0 < gwProgressLineCap := by decide

/-- `gw_worker_progress`. -/
structure GwWorkerProgress where
  frame : Nat
  fps : CDouble
  bitrate : Text bitrateCap
  outTimeUs : Int
  dropFrames : Nat
  speed : CDouble
  status : Text statusCap
  deriving DecidableEq

/-- The zeroed record. -/
def GwWorkerProgress.zero : GwWorkerProgress where
  frame := 0
  fps := .zero
  bitrate := ⟨[], List.not_mem_nil, bitrateCap_pos⟩
  outTimeUs := 0
  dropFrames := 0
  speed := .zero
  status := ⟨[], List.not_mem_nil, statusCap_pos⟩

/-- `gw_progress_parser`; `line` has `line_length` bytes, with room for a
terminator. -/
structure GwProgressParser where
  line : Bytes
  current : GwWorkerProgress
  fits : line.length < gwProgressLineCap

/-- `gw_progress_parser_init`. -/
def gwProgressParserInit : GwProgressParser := ⟨[], .zero, gwProgressLineCap_pos⟩

/-! ## Values -/

/-- `parse_u64`. -/
def parseU64 (value : Bytes) : Option Nat :=
  let parsed := strtoull value
  if parsed.erange || !parsed.converted || parsed.rest ≠ [] then none else some parsed.value.toNat

/-- `parse_i64`. -/
def parseI64 (value : Bytes) : Option Int :=
  let parsed := strtoll value
  if parsed.erange || !parsed.converted || parsed.rest ≠ [] then none else some parsed.value

/-- `parse_double_value`. -/
def parseDoubleValue (strtod : Strtod) (value : Bytes) : Option CDouble :=
  let parsed := strtod value
  if parsed.failed || !parsed.converted || (parsed.rest ≠ [] && parsed.rest ≠ ascii "x") then none
  else parsed.value.map .finite

/-! ## Lines -/

/-- What `parse_line` writes: the current record, and the completed one when the
line ends it. -/
structure ParsedLine where
  current : GwWorkerProgress
  completed : Option GwWorkerProgress

/-- `parse_line`; `line` is the C string. -/
def parseLine (strtod : Strtod) (current : GwWorkerProgress) (line : Bytes) : ParsedLine :=
  if byte '=' ∉ line then ⟨current, none⟩
  else
    let key := line.takeWhile fun b => b != byte '='
    let value := line.drop (key.length + 1)
    if key = ascii "frame" then
      ⟨{ current with frame := (parseU64 value).getD current.frame }, none⟩
    else if key = ascii "fps" then
      ⟨{ current with fps := (parseDoubleValue strtod value).getD current.fps }, none⟩
    else if key = ascii "bitrate" then
      ⟨{ current with bitrate := .truncate bitrateCap bitrateCap_pos value }, none⟩
    else if key = ascii "out_time_us" then
      ⟨{ current with outTimeUs := (parseI64 value).getD current.outTimeUs }, none⟩
    else if key = ascii "drop_frames" then
      ⟨{ current with dropFrames := (parseU64 value).getD current.dropFrames }, none⟩
    else if key = ascii "speed" then
      ⟨{ current with speed := (parseDoubleValue strtod value).getD current.speed }, none⟩
    else if key = ascii "progress" then
      ⟨.zero, some { current with status := .truncate statusCap statusCap_pos value }⟩
    else ⟨current, none⟩

/-- What a call of `gw_progress_parser_consume` works on: the parser, the caller's
`progress` and `completed`. -/
structure ProgressCall where
  parser : GwProgressParser
  progress : GwWorkerProgress
  completed : Bool

/-- The error for a line that does not fit. -/
def progressLineError : GwError :=
  gwErrorSet .errOverflow
    (ascii "FFmpeg progress line exceeds " ++ decimalNat (gwProgressLineCap - 1) ++ ascii " bytes")

/-- A line without the carriage return before its newline. -/
def progressLine (line : Bytes) : Bytes :=
  cString (if line.getLast? = some carriageReturn then line.dropLast else line)

/-- The loop body for a newline. -/
def ProgressCall.endLine (strtod : Strtod) (call : ProgressCall) : ProgressCall :=
  let parsed := parseLine strtod call.parser.current (progressLine call.parser.line)
  { parser := ⟨[], parsed.current, gwProgressLineCap_pos⟩
    progress := parsed.completed.getD call.progress
    completed := call.completed || parsed.completed.isSome }

/-- There is room for another byte of the line. -/
theorem line_fits {line : Bytes} {b : UInt8} (h : ¬ line.length + 1 ≥ gwProgressLineCap) :
    (line ++ [b]).length < gwProgressLineCap := by
  rw [List.length_append, List.length_singleton]
  omega

/-- The loop of `gw_progress_parser_consume`. -/
def consumeProgress (strtod : Strtod) (call : ProgressCall) :
    Bytes → ProgressCall × Except GwError Unit
  | [] => (call, .ok ())
  | b :: rest =>
      if b = newline then consumeProgress strtod (call.endLine strtod) rest
      else if h : call.parser.line.length + 1 ≥ gwProgressLineCap then
        ({ call with parser := ⟨[], call.parser.current, gwProgressLineCap_pos⟩ }, .error progressLineError)
      else
        consumeProgress strtod
          { call with
              parser := ⟨call.parser.line ++ [b], call.parser.current, line_fits h⟩ } rest

/-- `gw_progress_parser_consume`. -/
def gwProgressParserConsume (strtod : Strtod) (parser : GwProgressParser) (data : Bytes)
    (progress : GwWorkerProgress) : ProgressCall × Except GwError Unit :=
  consumeProgress strtod ⟨parser, progress, false⟩ data

end LearnApue.Gateway
