import LearnApue.Foundation.BoundedWriter
import LearnApue.Foundation.FixedPoint
import LearnApue.Gateway.ChannelSnapshot

set_option autoImplicit false

/-!
# Gateway: HTTP responses (`http_server.h`, `http_server.c`)

The JSON writer and the bodies it builds.  A piece of code that writes a text makes the
text the body of the response when it fits (`finishResponse_of_writes`).
-/

namespace LearnApue.Gateway

open LearnApue.Foundation

/-! ## The writer -/

/-- `json_append`. -/
def jsonAppend (formatted : Bytes) (writer : BoundedWriter) : BoundedWriter :=
  writer.append formatted

/-- A lower-case hexadecimal digit. -/
def hexDigit (value : Nat) : Byte :=
  if value < 10 then UInt8.ofNat (48 + value) else UInt8.ofNat (87 + value)

/-- `\u%04x` of a byte. -/
def unicodeEscape (b : Byte) : Bytes :=
  ascii "\\u00" ++ [hexDigit (b.toNat / 16), hexDigit (b.toNat % 16)]

/-- What `json_string` appends for a byte. -/
def jsonCharacter (b : Byte) : Bytes :=
  if b = byte '"' then ascii "\\\""
  else if b = byte '\\' then ascii "\\\\"
  else if b = 8 then ascii "\\b"
  else if b = 12 then ascii "\\f"
  else if b = newline then ascii "\\n"
  else if b = carriageReturn then ascii "\\r"
  else if b = 9 then ascii "\\t"
  else if b < 32 ∨ b ≥ 128 then unicodeEscape b
  else [b]

/-- The loop of `json_string`. -/
def jsonCharacters : Bytes → BoundedWriter → BoundedWriter
  | [], writer => writer
  | b :: rest, writer =>
      if writer.failed then writer else jsonCharacters rest (jsonAppend (jsonCharacter b) writer)

/-- `json_string`. -/
def jsonString (value : Bytes) (writer : BoundedWriter) : BoundedWriter :=
  writer |> jsonAppend (ascii "\"") |> jsonCharacters value |> jsonAppend (ascii "\"")

/-- `"%.3f"` of a finite number and `null` of any other. -/
def jsonDouble : CDouble → BoundedWriter → BoundedWriter
  | .finite value => jsonAppend (decimalThousandths value.negative value.magnitude)
  | .infinite _ | .nan => jsonAppend (ascii "null")

/-- The branch of `json_snapshot` for a snapshot with progress. -/
def jsonProgress (progress : GwWorkerProgress) (writer : BoundedWriter) : BoundedWriter :=
  writer
    |> jsonAppend (ascii "\x7b\"frame\":" ++ decimalNat progress.frame ++ ascii ",\"fps\":")
    |> jsonDouble progress.fps
    |> jsonAppend (ascii ",\"bitrate\":")
    |> jsonString progress.bitrate.bytes
    |> jsonAppend (ascii ",\"out_time_us\":" ++ decimalInt progress.outTimeUs ++
        ascii ",\"drop_frames\":" ++ decimalNat progress.dropFrames ++ ascii ",\"speed\":")
    |> jsonDouble progress.speed
    |> jsonAppend (ascii ",\"status\":")
    |> jsonString progress.status.bytes
    |> jsonAppend (ascii "\x7d")

/-- `json_snapshot`. -/
def jsonSnapshot (snapshot : GwChannelSnapshot) (writer : BoundedWriter) : BoundedWriter :=
  writer
    |> jsonAppend (ascii "\x7b\"id\":")
    |> jsonString snapshot.channelId.bytes
    |> jsonAppend (ascii ",\"state\":")
    |> jsonString (gwChannelStateString snapshot.state)
    |> jsonAppend (ascii ",\"last_event\":")
    |> jsonString snapshot.lastEvent.bytes
    |> jsonAppend (ascii ",\"process\":\x7b\"kind\":")
    |> jsonString (gwChannelProcessKindString snapshot.processKind)
    |> jsonAppend (ascii ",\"pid\":" ++ decimalInt snapshot.processPid ++
        ascii "\x7d,\"consecutive_failures\":" ++ decimalNat snapshot.consecutiveFailures ++
        ascii ",\"total_restarts\":" ++ decimalNat snapshot.totalRestarts ++
        ascii ",\"configuration_generation\":" ++ decimalNat snapshot.configurationGeneration ++
        ascii ",\"backoff_sec\":" ++ decimalInt snapshot.backoffSec ++
        ascii ",\"last_exit_code\":")
    |> (if snapshot.hasExitCode then jsonAppend (decimalInt snapshot.lastExitCode)
        else jsonAppend (ascii "null"))
    |> jsonAppend (ascii ",\"progress\":")
    |> (if snapshot.hasProgress then jsonProgress snapshot.progress
        else jsonAppend (ascii "null"))
    |> jsonAppend (ascii "\x7d")

/-! ## Responses -/

/-- `GW_HTTP_BODY_CAP`. -/
def gwHttpBodyCap : Nat := 131072

/-- `gw_http_content_type`. -/
inductive GwHttpContentType where
  | json
  | html
  deriving DecidableEq, Repr

/-- `gw_http_response`; `body` is what was written into the array. -/
structure GwHttpResponse where
  statusCode : Int
  allowGet : Bool
  allowPost : Bool
  contentType : GwHttpContentType
  body : Bytes
  bodyLength : Nat
  deriving DecidableEq

/-- The zeroed response. -/
def GwHttpResponse.cleared : GwHttpResponse := ⟨0, false, false, .json, [], 0⟩

/-- What a function that fills a response returns: the status, and the response. -/
abbrev HttpResult : Type := Except GwError Unit × GwHttpResponse

/-- `finish_response`. -/
def finishResponse (response : GwHttpResponse) (writer : BoundedWriter) : HttpResult :=
  if writer.failed then
    (.error (gwErrorSet .errOverflow (ascii "HTTP JSON response exceeds capacity")),
      { response with body := writer.data })
  else (.ok (), { response with body := writer.data, bodyLength := writer.length })

/-- A writer into a response's body. -/
def bodyWriter : BoundedWriter := .start gwHttpBodyCap

/-- A body that fits is the whole response. -/
theorem finishResponse_of_writes {text : Bytes} {piece : BoundedWriter → BoundedWriter}
    (h : BoundedWriter.Writes text piece) (hfits : text.length < gwHttpBodyCap)
    (response : GwHttpResponse) :
    finishResponse response (piece bodyWriter) =
      (.ok (), { response with body := text, bodyLength := text.length }) := by
  have hcap : 0 < gwHttpBodyCap := by decide
  obtain ⟨hfailed, hwritten⟩ := h.start hcap
  have hok : (piece bodyWriter).failed = false := by
    by_contra hnot
    have hfull := hfailed.mp (Bool.eq_true_of_not_eq_false hnot)
    omega
  obtain ⟨hdata, hlength⟩ := hwritten hok
  unfold finishResponse
  rw [if_neg (by rw [hok]; exact Bool.false_ne_true)]
  change (_, { response with body := (piece bodyWriter).data
                             bodyLength := (piece bodyWriter).length }) = _
  rw [bodyWriter, hdata, hlength]

/-- `error_response`. -/
def errorResponse (response : GwHttpResponse) (statusCode : Int) (code message : Bytes) :
    HttpResult :=
  finishResponse { response with statusCode := statusCode }
    (bodyWriter
      |> jsonAppend (ascii "\x7b\"error\":")
      |> jsonString code
      |> jsonAppend (ascii ",\"message\":")
      |> jsonString message
      |> jsonAppend (ascii "\x7d\n"))

/-- `method_not_allowed`. -/
def methodNotAllowed (response : GwHttpResponse) (allowGet allowPost : Bool) : HttpResult :=
  errorResponse { response with allowGet := allowGet, allowPost := allowPost } 405
    (ascii "method_not_allowed") (ascii "method is not allowed for this route")

/-- `gw_http_render_channel_metrics`. -/
def gwHttpRenderChannelMetrics (snapshot : GwChannelSnapshot) : HttpResult :=
  let metrics := snapshot.workerMetrics
  let workerActive := snapshot.processKind = .worker ∧ snapshot.processPid > 0
  finishResponse { GwHttpResponse.cleared with statusCode := 200, contentType := .json }
    (bodyWriter
      |> jsonAppend (ascii "\x7b\"id\":")
      |> jsonString snapshot.channelId.bytes
      |> jsonAppend (ascii ",\"state\":")
      |> jsonString (gwChannelStateString snapshot.state)
      |> jsonAppend (ascii ",\"ffmpeg_pid\":")
      |> (if workerActive then jsonAppend (decimalInt snapshot.processPid)
          else jsonAppend (ascii "null"))
      |> jsonAppend (ascii ",\"consecutive_failures\":" ++ decimalNat snapshot.consecutiveFailures ++
          ascii ",\"total_restarts\":" ++ decimalNat snapshot.totalRestarts ++
          ascii ",\"progress\":\x7b\"status\":")
      |> jsonString (if workerActive ∧ snapshot.hasProgress then ascii "available"
          else ascii "unavailable")
      |> (if workerActive ∧ snapshot.hasProgress then fun writer =>
            writer
              |> jsonAppend (ascii ",\"fps\":")
              |> jsonDouble snapshot.progress.fps
              |> jsonAppend (ascii ",\"bitrate\":")
              |> jsonString snapshot.progress.bitrate.bytes
              |> jsonAppend (ascii ",\"frames\":" ++ decimalNat snapshot.progress.frame ++
                  ascii ",\"drop_frames\":" ++ decimalNat snapshot.progress.dropFrames)
          else
            jsonAppend (ascii ",\"fps\":null,\"bitrate\":null,\"frames\":null,\"drop_frames\":null"))
      |> jsonAppend (ascii "\x7d,\"process_metrics\":\x7b\"status\":")
      |> jsonString (if workerActive ∧ metrics.available then ascii "available"
          else ascii "unavailable")
      |> jsonAppend (ascii ",\"cpu_percent\":")
      |> (if workerActive ∧ metrics.available ∧ metrics.cpuAvailable then
            jsonDouble metrics.cpuPercent
          else jsonAppend (ascii "null"))
      |> (if workerActive ∧ metrics.available then
            jsonAppend (ascii ",\"rss_kib\":" ++ decimalInt metrics.rssKib)
          else jsonAppend (ascii ",\"rss_kib\":null"))
      |> jsonAppend (ascii "\x7d\x7d\n"))

/-! ## The diagnostic page -/

/-- `PATH_MAX`. -/
def pathMax : Nat := 4096

/-- What the file system answers: the target of `/proc/self/exe`, and the contents of a file
when it can be opened, read and closed. -/
structure PageAnswers where
  executable : Option Bytes
  contents : Bytes → Option Bytes

/-- What `load_page_file` returns. -/
inductive PageLoad where
  | loaded (contents : Bytes)
  | failed
  | tooLong

/-- `load_page_file`. -/
def loadPageFile (answers : PageAnswers) (path : Bytes) : PageLoad :=
  match answers.contents path with
  | none => .failed
  | some contents => if contents.length + 1 ≤ gwHttpBodyCap then .loaded contents else .tooLong

/-- `build_executable_relative_path`. -/
def buildExecutableRelativePath (answers : PageAnswers) (capacity : Nat) (suffix : Bytes) :
    Option Bytes :=
  match answers.executable with
  | none => none
  | some link =>
      if link = [] ∨ link.length ≥ capacity ∨ byte '/' ∉ link then none
      else
        let directory := (link.reverse.dropWhile fun b => b ≠ byte '/').reverse
        if directory.length + suffix.length + 1 > capacity then none else some (directory ++ suffix)

/-- One candidate of `gw_http_render_view_page`. -/
def loadPage (answers : PageAnswers) (suffix : Bytes) : PageLoad :=
  match buildExecutableRelativePath answers pathMax suffix with
  | none => .failed
  | some path => loadPageFile answers path

/-- `gw_http_render_view_page`. -/
def gwHttpRenderViewPage (answers : PageAnswers) : HttpResult :=
  let first := loadPage answers (ascii "web/diagnostic.html")
  let result :=
    match first with
    | .failed => loadPage answers (ascii "../share/rk-media-gateway/web/diagnostic.html")
    | _ => first
  match result with
  | .tooLong =>
      (.error (gwErrorSet .errOverflow (ascii "diagnostic page exceeds HTTP response capacity")),
        .cleared)
  | .failed =>
      (.error (gwErrorSet .errIo (ascii "diagnostic page asset is unavailable")), .cleared)
  | .loaded contents =>
      (.ok (),
        { GwHttpResponse.cleared with
            statusCode := 200
            contentType := .html
            body := contents
            bodyLength := contents.length })

end LearnApue.Gateway
