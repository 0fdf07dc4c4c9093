import LearnApue.Gateway.ChannelsBody
import LearnApue.Gateway.HttpWire
import LearnApue.Gateway.RequestLine

set_option autoImplicit false
set_option maxRecDepth 2048

/-!
# Gateway: the JSON of the responses (`http_server.c`)

Every builder of a JSON body prints an object and a line feed, and refuses a body that
does not fit.  So the body of a response that was built decodes to the value that the
builder was given (`responses_decode`).

A builder prints in pieces, and a piece may stand in a branch of its own, with commas and
braces at its ends.  Each proof has three parts: the text of the whole object encodes the
value (`Encodes`), the pieces write some text (`Writes`), and that text is the object's.
The first is by the members of the object, the second by the pieces as they stand in the
code, and the third is a computation on the punctuation.

On top of the builders stands the route, which answers every request with something that
tells the client what happened (`gwHttpRoute_tells`), and on top of it the connection
(`handleConnection_wire`).
-/

namespace LearnApue.Gateway

open LearnApue.Foundation LearnApue.Foundation.BoundedWriter

/-! ## Values -/

/-- The value of an error. -/
def errorValue (code message : Bytes) : Json :=
  objectValue [(ascii "error", stringValue code), (ascii "message", stringValue message)]

/-- The value of the gateway's health: it is degraded by a channel that failed, and by a
recording that is short of space or unavailable. -/
def healthValue (snapshots : List GwChannelSnapshot) (recording : GwRecordingSnapshot) : Json :=
  objectValue
    [(ascii "status",
        stringValue (if (snapshots.countP fun snapshot => snapshot.state = .failed) = 0 ∧
          recording.state ≠ .lowSpace ∧ recording.state ≠ .unavailable then ascii "ok"
          else ascii "degraded")),
      (ascii "channel_count", .number snapshots.length),
      (ascii "running", .number (snapshots.countP fun snapshot => snapshot.state = .running : Nat)),
      (ascii "failed", .number (snapshots.countP fun snapshot => snapshot.state = .failed : Nat)),
      (ascii "recording", stringValue (gwRecordingStateString recording.state))]

/-- The value of the recordings' disk. -/
def recordingValue (recording : GwRecordingSnapshot) : Json :=
  objectValue
    [(ascii "enabled", .bool recording.enabled),
      (ascii "status", stringValue (gwRecordingStateString recording.state)),
      (ascii "filesystem_available", .bool recording.filesystemAvailable),
      (ascii "total_bytes", .number recording.totalBytes),
      (ascii "available_bytes", .number recording.availableBytes),
      (ascii "min_free_bytes", .number recording.minFreeBytes)]

/-- The value of the list of channels. -/
def channelsValue (snapshots : List GwChannelSnapshot) : Json :=
  objectValue [(ascii "channels", .array (snapshots.map snapshotValue))]

/-- The value of an accepted command. -/
def acceptedValue (channelId action : Bytes) : Json :=
  objectValue
    [(ascii "status", stringValue (ascii "accepted")), (ascii "channel_id", stringValue channelId),
      (ascii "action", stringValue action)]

/-- Whether a snapshot is that of a worker that runs; what it says of its progress and its
process counts only then. -/
def GwChannelSnapshot.WorkerActive (snapshot : GwChannelSnapshot) : Prop :=
  snapshot.processKind = .worker ∧ snapshot.processPid > 0

instance (snapshot : GwChannelSnapshot) : Decidable snapshot.WorkerActive :=
  inferInstanceAs (Decidable (_ ∧ _))

/-- What a worker reported of its progress. -/
def reportedProgress (snapshot : GwChannelSnapshot) : List (Bytes × Json) :=
  if snapshot.WorkerActive ∧ snapshot.hasProgress then
    [(ascii "status", stringValue (ascii "available")),
      (ascii "fps", doubleValue snapshot.progress.fps),
      (ascii "bitrate", stringValue snapshot.progress.bitrate.bytes),
      (ascii "frames", .number snapshot.progress.frame),
      (ascii "drop_frames", .number snapshot.progress.dropFrames)]
  else
    [(ascii "status", stringValue (ascii "unavailable")), (ascii "fps", .null),
      (ascii "bitrate", .null), (ascii "frames", .null), (ascii "drop_frames", .null)]

/-- What was sampled of a worker's process. -/
def sampledMetrics (snapshot : GwChannelSnapshot) : List (Bytes × Json) :=
  if snapshot.WorkerActive ∧ snapshot.workerMetrics.available then
    [(ascii "status", stringValue (ascii "available")),
      (ascii "cpu_percent",
        if snapshot.workerMetrics.cpuAvailable then doubleValue snapshot.workerMetrics.cpuPercent
        else .null),
      (ascii "rss_kib", .number snapshot.workerMetrics.rssKib)]
  else
    [(ascii "status", stringValue (ascii "unavailable")), (ascii "cpu_percent", .null),
      (ascii "rss_kib", .null)]

/-- The value of a channel's metrics. -/
def metricsValue (snapshot : GwChannelSnapshot) : Json :=
  objectValue
    [(ascii "id", stringValue snapshot.channelId.bytes),
      (ascii "state", stringValue (gwChannelStateString snapshot.state)),
      (ascii "ffmpeg_pid", if snapshot.WorkerActive then .number snapshot.processPid else .null),
      (ascii "consecutive_failures", .number snapshot.consecutiveFailures),
      (ascii "total_restarts", .number snapshot.totalRestarts),
      (ascii "progress", objectValue (reportedProgress snapshot)),
      (ascii "process_metrics", objectValue (sampledMetrics snapshot))]

/-! ## Answers -/

/-- A response that, where it was built, has a status code and a JSON body of a value. -/
def Answers (statusCode : Int) (value : Json) (result : HttpResult) : Prop :=
  result.1 = .ok () →
    Built result.2 ∧ result.2.statusCode = statusCode ∧ result.2.contentType = .json ∧
      Json.decode result.2.body = some value

/-- What is printed with a line feed behind it is the value of the response. -/
theorem finishResponse_answers {text : Bytes} {value : Json} {piece : BoundedWriter → BoundedWriter}
    (hwrites : Writes (text ++ ascii "\n") piece) (hencodes : Encodes text value)
    {response : GwHttpResponse} (hcode : response.statusCode ∈ answeredCodes)
    (htype : response.contentType = .json) :
    Answers response.statusCode value (finishResponse response (piece bodyWriter)) := by
  have hcap : 0 < gwHttpBodyCap := by decide
  obtain ⟨hfailed, hwritten⟩ := hwrites.start hcap
  intro hok
  -- the builder has succeeded, so the writer has not failed and the text fits
  have hgoes : (piece bodyWriter).failed = false := by
    by_contra hnot
    rw [finishResponse, if_pos (Bool.eq_true_of_not_eq_false hnot)] at hok
    cases hok
  have hfits : (text ++ ascii "\n").length < gwHttpBodyCap := by
    by_contra hnot
    have hfull := hfailed.mpr (Nat.le_of_not_lt hnot)
    rw [show start gwHttpBodyCap = bodyWriter from rfl, hgoes] at hfull
    cases hfull
  rw [finishResponse_of_writes hwrites hfits]
  exact ⟨⟨rfl, hfits, hcode⟩, rfl, htype, hencodes.reads.decode rfl⟩

/-- `true` and `false`. -/
theorem jsonBool_encodes (value : Bool) : Encodes (jsonBool value) (.bool value) := by
  cases value with
  | true => exact ⟨printable_all (by decide), Json.reads_true⟩
  | false => exact ⟨printable_all (by decide), Json.reads_false⟩

/-- An error tells a code and a message, whatever bytes they hold. -/
theorem errorResponse_answers {response : GwHttpResponse} (htype : response.contentType = .json)
    {statusCode : Int} (hcode : statusCode ∈ answeredCodes) (code message : Bytes) :
    Answers statusCode (errorValue code message) (errorResponse response statusCode code message) := by
  have hencodes : Encodes
      (objectText [(ascii "error", stringText code), (ascii "message", stringText message)])
      (errorValue code message) := by
    refine encodes_objectText ?_ (by simp)
    exact .cons ⟨by decide, encodes_stringText _⟩ <| .cons ⟨by decide, encodes_stringText _⟩ .nil
  have hwrites := jsonAppend_writes (ascii "\x7b\"error\":")
    |>.andThen (jsonString_writes code)
    |>.andThen (jsonAppend_writes (ascii ",\"message\":"))
    |>.andThen (jsonString_writes message)
    |>.andThen (jsonAppend_writes (ascii "\x7d\n"))
  refine finishResponse_answers (hwrites.of_eq ?_) hencodes hcode htype
  simp [objectText, memberText, Json.joined, ascii, byte, Json.quote, Json.colon, Json.comma]

/-- The recordings' disk. -/
theorem recordingResponse_answers (recording : GwRecordingSnapshot) :
    Answers 200 (recordingValue recording) (recordingResponse recording) := by
  have hencodes : Encodes
      (objectText
        [(ascii "enabled", jsonBool recording.enabled),
          (ascii "status", stringText (gwRecordingStateString recording.state)),
          (ascii "filesystem_available", jsonBool recording.filesystemAvailable),
          (ascii "total_bytes", decimalNat recording.totalBytes),
          (ascii "available_bytes", decimalNat recording.availableBytes),
          (ascii "min_free_bytes", decimalNat recording.minFreeBytes)])
      (recordingValue recording) := by
    refine encodes_objectText ?_ (by simp)
    exact .cons ⟨by decide, jsonBool_encodes _⟩ <| .cons ⟨by decide, encodes_stringText _⟩ <|
      .cons ⟨by decide, jsonBool_encodes _⟩ <| .cons ⟨by decide, encodes_nat _⟩ <|
      .cons ⟨by decide, encodes_nat _⟩ <| .cons ⟨by decide, encodes_nat _⟩ .nil
  have hwrites := jsonAppend_writes
      (ascii "\x7b\"enabled\":" ++ jsonBool recording.enabled ++ ascii ",\"status\":")
    |>.andThen (jsonString_writes (gwRecordingStateString recording.state))
    |>.andThen (jsonAppend_writes (ascii ",\"filesystem_available\":" ++
        jsonBool recording.filesystemAvailable ++
        ascii ",\"total_bytes\":" ++ decimalNat recording.totalBytes ++
        ascii ",\"available_bytes\":" ++ decimalNat recording.availableBytes ++
        ascii ",\"min_free_bytes\":" ++ decimalNat recording.minFreeBytes ++ ascii "\x7d\n"))
  refine finishResponse_answers (hwrites.of_eq ?_) hencodes (by decide) rfl
  simp [objectText, memberText, Json.joined, ascii, byte, Json.quote, Json.colon, Json.comma]

/-- The health of the gateway.  Its status is printed with its quotes as part of a piece,
so it has to need no escape (`hplain`). -/
theorem healthResponse_answers (snapshots : List GwChannelSnapshot)
    (recording : GwRecordingSnapshot) :
    Answers 200 (healthValue snapshots recording) (healthResponse snapshots recording) := by
  have hencodes : ∀ status running failed, Encodes
      (objectText
        [(ascii "status", stringText status),
          (ascii "channel_count", decimalNat snapshots.length), (ascii "running", decimalNat running),
          (ascii "failed", decimalNat failed),
          (ascii "recording", stringText (gwRecordingStateString recording.state))])
      (objectValue
        [(ascii "status", stringValue status), (ascii "channel_count", .number snapshots.length),
          (ascii "running", .number running), (ascii "failed", .number failed),
          (ascii "recording", stringValue (gwRecordingStateString recording.state))]) := by
    intro status running failed
    refine encodes_objectText ?_ (by simp)
    exact .cons ⟨by decide, encodes_stringText _⟩ <| .cons ⟨by decide, encodes_nat _⟩ <|
      .cons ⟨by decide, encodes_nat _⟩ <| .cons ⟨by decide, encodes_nat _⟩ <|
      .cons ⟨by decide, encodes_stringText _⟩ .nil
  have hwrites : ∀ status running failed,
      Writes _ fun writer => writer
        |> jsonAppend (ascii "\x7b\"status\":\"" ++ status ++
            ascii "\",\"channel_count\":" ++ decimalNat snapshots.length ++
            ascii ",\"running\":" ++ decimalNat running ++ ascii ",\"failed\":" ++
            decimalNat failed ++ ascii ",\"recording\":")
        |> jsonString (gwRecordingStateString recording.state)
        |> jsonAppend (ascii "\x7d\n") := fun status running failed =>
    (jsonAppend_writes _).andThen (jsonString_writes _) |>.andThen (jsonAppend_writes _)
  have hplain : ∀ healthy : Prop, ∀ [Decidable healthy],
      stringText (if healthy then ascii "ok" else ascii "degraded") =
        Json.quote :: (if healthy then ascii "ok" else ascii "degraded") ++ [Json.quote] := by
    intro healthy _
    split <;> decide
  refine finishResponse_answers ((hwrites _ _ _).of_eq ?_) (hencodes _ _ _) (by decide) rfl
  simp only [objectText, memberText, Json.joined, List.map_cons, List.map_nil]
  rw [hplain]
  simp [ascii, byte, Json.quote, Json.colon, Json.comma]

/-- One channel. -/
theorem channelResponse_answers (snapshot : GwChannelSnapshot) :
    Answers 200 (snapshotValue snapshot) (channelResponse snapshot) :=
  finishResponse_answers ((jsonSnapshot_writes snapshot).andThen (jsonAppend_writes (ascii "\n")))
    (encodes_snapshotText snapshot) (by decide) rfl

/-- The list of channels, with a comma in front of each but the first. -/
theorem channelsResponse_answers (snapshots : List GwChannelSnapshot) :
    Answers 200 (channelsValue snapshots) (channelsResponse snapshots) := by
  have harray : Encodes (byte '[' :: Json.joined (snapshots.map snapshotText) ++ [byte ']'])
      (.array (snapshots.map snapshotValue)) := by
    constructor
    · have hopen : Printable [byte '['] := printable_all (by decide)
      have hclose : Printable [byte ']'] := printable_all (by decide)
      refine (hopen.append (printable_joined ?_)).append hclose
      intro text htext
      obtain ⟨snapshot, -, rfl⟩ := List.mem_map.mp htext
      exact (encodes_snapshotText snapshot).printable
    · refine Json.reads_array ?_
      rw [List.forall₂_map_left_iff, List.forall₂_map_right_iff, List.forall₂_same]
      exact fun snapshot _ => (encodes_snapshotText snapshot).reads
  have hencodes : Encodes
      (objectText [(ascii "channels", byte '[' :: Json.joined (snapshots.map snapshotText) ++ [byte ']'])])
      (channelsValue snapshots) := by
    refine encodes_objectText ?_ (by simp)
    exact .cons ⟨by decide, harray⟩ .nil
  have hwrites := jsonAppend_writes (ascii "\x7b\"channels\":[")
    |>.andThen (jsonChannels_writes snapshots)
    |>.andThen (jsonAppend_writes (ascii "]\x7d\n"))
  refine finishResponse_answers (hwrites.of_eq ?_) hencodes (by decide) rfl
  simp [objectText, memberText, Json.joined, ascii, byte, Json.quote, Json.colon]

/-! ## Metrics -/

/-- The text of `reportedProgress`. -/
def reportedText (snapshot : GwChannelSnapshot) : List (Bytes × Bytes) :=
  if snapshot.WorkerActive ∧ snapshot.hasProgress then
    [(ascii "status", stringText (ascii "available")),
      (ascii "fps", doubleText snapshot.progress.fps),
      (ascii "bitrate", stringText snapshot.progress.bitrate.bytes),
      (ascii "frames", decimalNat snapshot.progress.frame),
      (ascii "drop_frames", decimalNat snapshot.progress.dropFrames)]
  else
    [(ascii "status", stringText (ascii "unavailable")), (ascii "fps", ascii "null"),
      (ascii "bitrate", ascii "null"), (ascii "frames", ascii "null"),
      (ascii "drop_frames", ascii "null")]

/-- The text of `sampledMetrics`. -/
def sampledText (snapshot : GwChannelSnapshot) : List (Bytes × Bytes) :=
  if snapshot.WorkerActive ∧ snapshot.workerMetrics.available then
    [(ascii "status", stringText (ascii "available")),
      (ascii "cpu_percent",
        if snapshot.workerMetrics.cpuAvailable then doubleText snapshot.workerMetrics.cpuPercent
        else ascii "null"),
      (ascii "rss_kib", decimalInt snapshot.workerMetrics.rssKib)]
  else
    [(ascii "status", stringText (ascii "unavailable")), (ascii "cpu_percent", ascii "null"),
      (ascii "rss_kib", ascii "null")]

theorem encodes_reported (snapshot : GwChannelSnapshot) :
    Encodes (objectText (reportedText snapshot)) (objectValue (reportedProgress snapshot)) := by
  unfold reportedText reportedProgress
  split
  · refine encodes_objectText ?_ (by simp)
    exact .cons ⟨by decide, encodes_stringText _⟩ <| .cons ⟨by decide, encodes_doubleText _⟩ <|
      .cons ⟨by decide, encodes_stringText _⟩ <| .cons ⟨by decide, encodes_nat _⟩ <|
      .cons ⟨by decide, encodes_nat _⟩ .nil
  · refine encodes_objectText ?_ (by simp)
    exact .cons ⟨by decide, encodes_stringText _⟩ <| .cons ⟨by decide, encodes_null⟩ <|
      .cons ⟨by decide, encodes_null⟩ <| .cons ⟨by decide, encodes_null⟩ <|
      .cons ⟨by decide, encodes_null⟩ .nil

/-- What was sampled is an object, with or without a CPU figure. -/
theorem encodes_sampled (snapshot : GwChannelSnapshot) :
    Encodes (objectText (sampledText snapshot)) (objectValue (sampledMetrics snapshot)) := by
  have hcpu : Encodes
      (if snapshot.workerMetrics.cpuAvailable then doubleText snapshot.workerMetrics.cpuPercent
        else ascii "null")
      (if snapshot.workerMetrics.cpuAvailable then doubleValue snapshot.workerMetrics.cpuPercent
        else .null) := by
    split
    · exact encodes_doubleText _
    · exact encodes_null
  unfold sampledText sampledMetrics
  split
  · refine encodes_objectText ?_ (by simp)
    exact .cons ⟨by decide, encodes_stringText _⟩ <| .cons ⟨by decide, hcpu⟩ <|
      .cons ⟨by decide, encodes_int _⟩ .nil
  · refine encodes_objectText ?_ (by simp)
    exact .cons ⟨by decide, encodes_stringText _⟩ <| .cons ⟨by decide, encodes_null⟩ <|
      .cons ⟨by decide, encodes_null⟩ .nil

/-- The text of the progress as the code prints it: the branches differ behind the status. -/
theorem reportedText_eq (snapshot : GwChannelSnapshot) :
    objectText (reportedText snapshot) =
      ascii "\x7b\"status\":" ++
        stringText (if snapshot.WorkerActive ∧ snapshot.hasProgress then ascii "available"
          else ascii "unavailable") ++
        (if snapshot.WorkerActive ∧ snapshot.hasProgress then
            ascii ",\"fps\":" ++ doubleText snapshot.progress.fps ++ ascii ",\"bitrate\":" ++
              stringText snapshot.progress.bitrate.bytes ++
              (ascii ",\"frames\":" ++ decimalNat snapshot.progress.frame ++
                ascii ",\"drop_frames\":" ++ decimalNat snapshot.progress.dropFrames)
          else ascii ",\"fps\":null,\"bitrate\":null,\"frames\":null,\"drop_frames\":null") ++
        ascii "\x7d" := by
  unfold reportedText
  split <;>
    simp [objectText, memberText, Json.joined, ascii, byte, Json.quote, Json.colon, Json.comma]

/-- The text of the process metrics as the code prints it, in three branches. -/
theorem sampledText_eq (snapshot : GwChannelSnapshot) :
    objectText (sampledText snapshot) =
      ascii "\x7b\"status\":" ++
        stringText (if snapshot.WorkerActive ∧ snapshot.workerMetrics.available then
          ascii "available" else ascii "unavailable") ++
        ascii ",\"cpu_percent\":" ++
        (if snapshot.WorkerActive ∧ snapshot.workerMetrics.available ∧
            snapshot.workerMetrics.cpuAvailable then doubleText snapshot.workerMetrics.cpuPercent
          else ascii "null") ++
        (if snapshot.WorkerActive ∧ snapshot.workerMetrics.available then
            ascii ",\"rss_kib\":" ++ decimalInt snapshot.workerMetrics.rssKib
          else ascii ",\"rss_kib\":null") ++
        ascii "\x7d" := by
  unfold sampledText
  by_cases h : snapshot.WorkerActive ∧ snapshot.workerMetrics.available = true
  · simp only [h.1, h.2, true_and]
    simp [objectText, memberText, Json.joined, ascii, byte, Json.quote, Json.colon, Json.comma]
  · have hcpu : ¬ (snapshot.WorkerActive ∧ snapshot.workerMetrics.available = true ∧
        snapshot.workerMetrics.cpuAvailable = true) := fun hall => h ⟨hall.1, hall.2.1⟩
    simp only [if_neg h, if_neg hcpu]
    simp [objectText, memberText, Json.joined, ascii, byte, Json.quote, Json.colon, Json.comma]

/-- A channel's metrics, which the code prints in the most pieces. -/
theorem metricsResponse_answers (snapshot : GwChannelSnapshot) :
    Answers 200 (metricsValue snapshot) (gwHttpRenderChannelMetrics snapshot) := by
  have hpid : Encodes
      (if snapshot.WorkerActive then decimalInt snapshot.processPid else ascii "null")
      (if snapshot.WorkerActive then .number snapshot.processPid else .null) := by
    split
    · exact encodes_int _
    · exact encodes_null
  have hencodes : Encodes
      (objectText
        [(ascii "id", stringText snapshot.channelId.bytes),
          (ascii "state", stringText (gwChannelStateString snapshot.state)),
          (ascii "ffmpeg_pid",
            if snapshot.WorkerActive then decimalInt snapshot.processPid else ascii "null"),
          (ascii "consecutive_failures", decimalNat snapshot.consecutiveFailures),
          (ascii "total_restarts", decimalNat snapshot.totalRestarts),
          (ascii "progress", objectText (reportedText snapshot)),
          (ascii "process_metrics", objectText (sampledText snapshot))])
      (metricsValue snapshot) := by
    refine encodes_objectText ?_ (by simp)
    exact .cons ⟨by decide, encodes_stringText _⟩ <| .cons ⟨by decide, encodes_stringText _⟩ <|
      .cons ⟨by decide, hpid⟩ <| .cons ⟨by decide, encodes_nat _⟩ <|
      .cons ⟨by decide, encodes_nat _⟩ <| .cons ⟨by decide, encodes_reported _⟩ <|
      .cons ⟨by decide, encodes_sampled _⟩ .nil
  have hprogress := jsonAppend_writes (ascii ",\"fps\":")
    |>.andThen (jsonDouble_writes snapshot.progress.fps)
    |>.andThen (jsonAppend_writes (ascii ",\"bitrate\":"))
    |>.andThen (jsonString_writes snapshot.progress.bitrate.bytes)
    |>.andThen (jsonAppend_writes (ascii ",\"frames\":" ++ decimalNat snapshot.progress.frame ++
        ascii ",\"drop_frames\":" ++ decimalNat snapshot.progress.dropFrames))
  have hwrites := jsonAppend_writes (ascii "\x7b\"id\":")
    |>.andThen (jsonString_writes snapshot.channelId.bytes)
    |>.andThen (jsonAppend_writes (ascii ",\"state\":"))
    |>.andThen (jsonString_writes (gwChannelStateString snapshot.state))
    |>.andThen (jsonAppend_writes (ascii ",\"ffmpeg_pid\":"))
    |>.andThen (@writes_ite _ _ _ _ snapshot.WorkerActive _
        (jsonAppend_writes (decimalInt snapshot.processPid)) (jsonAppend_writes (ascii "null")))
    |>.andThen (jsonAppend_writes (ascii ",\"consecutive_failures\":" ++
        decimalNat snapshot.consecutiveFailures ++ ascii ",\"total_restarts\":" ++
        decimalNat snapshot.totalRestarts ++ ascii ",\"progress\":\x7b\"status\":"))
    |>.andThen (jsonString_writes (if snapshot.WorkerActive ∧ snapshot.hasProgress then
        ascii "available" else ascii "unavailable"))
    |>.andThen (@writes_ite _ _ _ _ (snapshot.WorkerActive ∧ snapshot.hasProgress) _ hprogress
        (jsonAppend_writes
          (ascii ",\"fps\":null,\"bitrate\":null,\"frames\":null,\"drop_frames\":null")))
    |>.andThen (jsonAppend_writes (ascii "\x7d,\"process_metrics\":\x7b\"status\":"))
    |>.andThen (jsonString_writes (if snapshot.WorkerActive ∧ snapshot.workerMetrics.available then
        ascii "available" else ascii "unavailable"))
    |>.andThen (jsonAppend_writes (ascii ",\"cpu_percent\":"))
    |>.andThen (@writes_ite _ _ _ _ (snapshot.WorkerActive ∧ snapshot.workerMetrics.available ∧
        snapshot.workerMetrics.cpuAvailable) _ (jsonDouble_writes snapshot.workerMetrics.cpuPercent)
        (jsonAppend_writes (ascii "null")))
    |>.andThen (@writes_ite _ _ _ _ (snapshot.WorkerActive ∧ snapshot.workerMetrics.available) _
        (jsonAppend_writes (ascii ",\"rss_kib\":" ++ decimalInt snapshot.workerMetrics.rssKib))
        (jsonAppend_writes (ascii ",\"rss_kib\":null")))
    |>.andThen (jsonAppend_writes (ascii "\x7d\x7d\n"))
  refine finishResponse_answers (hwrites.of_eq ?_) hencodes (by decide) rfl
  rw [reportedText_eq, sampledText_eq]
  simp [objectText, memberText, Json.joined, ascii, byte, Json.quote, Json.colon, Json.comma]

/-! ## Commands -/

theorem channelNotFound_answers :
    Answers 404 (errorValue (ascii "not_found") (ascii "channel was not found")) channelNotFound :=
  errorResponse_answers rfl (by decide) _ _

/-- A command that was accepted. -/
theorem acceptedResponse_answers (channelId action : Bytes) :
    Answers 202 (acceptedValue channelId action) (actionResponse channelId action (.ok ())) := by
  have hencodes : Encodes
      (objectText
        [(ascii "status", stringText (ascii "accepted")), (ascii "channel_id", stringText channelId),
          (ascii "action", stringText action)])
      (acceptedValue channelId action) := by
    refine encodes_objectText ?_ (by simp)
    exact .cons ⟨by decide, encodes_stringText _⟩ <| .cons ⟨by decide, encodes_stringText _⟩ <|
      .cons ⟨by decide, encodes_stringText _⟩ .nil
  have hwrites := jsonAppend_writes (ascii "\x7b\"status\":\"accepted\",\"channel_id\":")
    |>.andThen (jsonString_writes channelId)
    |>.andThen (jsonAppend_writes (ascii ",\"action\":"))
    |>.andThen (jsonString_writes action)
    |>.andThen (jsonAppend_writes (ascii "\x7d\n"))
  have hplain : stringText (ascii "accepted") =
      Json.quote :: ascii "accepted" ++ [Json.quote] := by decide
  refine finishResponse_answers (hwrites.of_eq ?_) hencodes (by decide) rfl
  simp only [objectText, memberText, Json.joined, List.map_cons, List.map_nil]
  rw [hplain]
  simp [ascii, byte, Json.quote, Json.colon, Json.comma]

/-- The value that the answer to a command carries, and its status code. -/
def commandAnswer (channelId action : Bytes) : Except GwError Unit → Int × Json
  | .ok _ => (202, acceptedValue channelId action)
  | .error error =>
      if error.code = .errNotFound then
        (404, errorValue (ascii "not_found") (ascii "channel was not found"))
      else
        (409, errorValue (ascii "state_conflict")
          (ascii "channel command conflicts with current state"))

/-- The answer to a command, or the report of an error that is none of the client's. -/
theorem actionResponse_answers (channelId action : Bytes) (status : Except GwError Unit) :
    Answers (commandAnswer channelId action status).1 (commandAnswer channelId action status).2
      (actionResponse channelId action status) := by
  cases status with
  | ok value => exact acceptedResponse_answers channelId action
  | error error =>
    unfold commandAnswer actionResponse
    dsimp only
    split
    · exact channelNotFound_answers
    · split
      · exact errorResponse_answers rfl (by decide) _ _
      · intro hok
        cases hok

/-- Every response that was built with a JSON body carries the value of what it was
built from, with the status code of the answer; it is as long as it says and fits. -/
theorem responses_decode :
    (∀ response statusCode code message, response.contentType = .json →
      statusCode ∈ answeredCodes →
      Answers statusCode (errorValue code message)
        (errorResponse response statusCode code message)) ∧
    (∀ snapshots recording,
      Answers 200 (healthValue snapshots recording) (healthResponse snapshots recording)) ∧
    (∀ recording, Answers 200 (recordingValue recording) (recordingResponse recording)) ∧
    (∀ snapshots, Answers 200 (channelsValue snapshots) (channelsResponse snapshots)) ∧
    (∀ snapshot, Answers 200 (snapshotValue snapshot) (channelResponse snapshot)) ∧
    (∀ snapshot, Answers 200 (metricsValue snapshot) (gwHttpRenderChannelMetrics snapshot)) ∧
    ∀ channelId action status,
      Answers (commandAnswer channelId action status).1 (commandAnswer channelId action status).2
        (actionResponse channelId action status) :=
  ⟨fun _ _ code message htype hcode => errorResponse_answers htype hcode code message,
    healthResponse_answers, recordingResponse_answers, channelsResponse_answers,
    channelResponse_answers, metricsResponse_answers, actionResponse_answers⟩

/-! ## Connections -/

/-- What a response that is sent tells: an error is an object with a code and a message,
and only the page is no JSON. -/
structure Told (response : GwHttpResponse) : Prop where
  built : Built response
  json : response.contentType = .json → ∃ value, Json.decode response.body = some value ∧
    (400 ≤ response.statusCode → ∃ code message, value = errorValue code message)
  html : response.contentType = .html → response.statusCode = 200

/-- A response that tells something where it was built. -/
def Tells (result : HttpResult) : Prop := result.1 = .ok () → Told result.2

theorem Answers.tells {statusCode : Int} {value : Json} {result : HttpResult}
    (h : Answers statusCode value result)
    (herror : 400 ≤ statusCode → ∃ code message, value = errorValue code message) :
    Tells result := by
  intro hok
  obtain ⟨hbuilt, hcode, htype, hdecode⟩ := h hok
  refine ⟨hbuilt, fun _ => ⟨value, hdecode, hcode ▸ herror⟩, fun hhtml => ?_⟩
  rw [htype] at hhtml
  cases hhtml

theorem errorResponse_tells {response : GwHttpResponse} (htype : response.contentType = .json)
    {statusCode : Int} (hcode : statusCode ∈ answeredCodes) (code message : Bytes) :
    Tells (errorResponse response statusCode code message) :=
  (errorResponse_answers htype hcode code message).tells fun _ => ⟨code, message, rfl⟩

/-- The page is no JSON, and is sent only if it was loaded whole. -/
theorem gwHttpRenderViewPage_tells (page : PageAnswers) : Tells (gwHttpRenderViewPage page) := by
  have hloaded : ∀ suffix contents, loadPage page suffix = .loaded contents →
      contents.length < gwHttpBodyCap := by
    intro suffix contents hload
    unfold loadPage at hload
    split at hload
    · cases hload
    · unfold loadPageFile at hload
      split at hload
      · cases hload
      · split at hload
        · cases hload
          rename_i hfits
          omega
        · cases hload
  unfold gwHttpRenderViewPage
  intro hok
  dsimp only at hok ⊢
  split at hok
  · cases hok
  · cases hok
  · rename_i contents hresult
    have hfits : contents.length < gwHttpBodyCap := by
      split at hresult
      · exact hloaded _ _ hresult
      · exact hloaded _ _ hresult
    have hcode : (200 : Int) ∈ answeredCodes := by decide
    refine ⟨⟨rfl, hfits, hcode⟩, fun hjson => ?_, fun _ => rfl⟩
    cases hjson

theorem withSnapshot_tells {answers : RouteAnswers} {channelId : Bytes}
    {respond : GwChannelSnapshot → HttpResult} (h : ∀ snapshot, Tells (respond snapshot)) :
    (withSnapshot answers channelId respond).Returns Tells := by
  refine Section.returns_bind fun found => ?_
  cases found with
  | error error => exact channelNotFound_answers.tells fun _ => ⟨_, _, rfl⟩
  | ok snapshot => exact h snapshot

/-- Every request is answered by a response that tells something, or by an error.  The cases
are those of the route: the path first, then the method, then what the manager answers. -/
theorem gwHttpRoute_tells (answers : RouteAnswers) (recording : GwRecordingConfig)
    (method target : Bytes) : (gwHttpRoute answers recording method target).Returns Tells := by
  have hrefused : ∀ allowGet allowPost, Tells (methodNotAllowed routeResponse allowGet allowPost) :=
    fun _ _ => errorResponse_tells rfl (by decide) _ _
  have hsuccess : ∀ {value : Json} {result : HttpResult}, Answers 200 value result → Tells result :=
    fun h => h.tells fun hnever => absurd hnever (by decide)
  have hfailed : ∀ error : GwError, Tells (.error error, routeResponse) := by
    intro error hok
    cases hok
  unfold gwHttpRoute
  split
  · exact errorResponse_tells rfl (by decide) _ _
  · unfold routePath
    split
    · split
      · exact hrefused _ _
      · refine Section.returns_bind fun listed => ?_
        cases listed with
        | error error => exact hfailed error
        | ok snapshots =>
          dsimp only
          split
          · exact hfailed _
          · exact hsuccess (healthResponse_answers _ _)
    · split
      · split
        · exact hrefused _ _
        · split
          · exact hfailed _
          · exact hsuccess (recordingResponse_answers _)
      · split
        · split
          · exact hrefused _ _
          · refine Section.returns_bind fun listed => ?_
            cases listed with
            | error error => exact hfailed error
            | ok snapshots => exact hsuccess (channelsResponse_answers _)
        · split
          · split
            · exact hrefused _ _
            · exact withSnapshot_tells fun _ => gwHttpRenderViewPage_tells _
          · split
            · split
              · exact hrefused _ _
              · exact withSnapshot_tells fun snapshot => hsuccess (metricsResponse_answers snapshot)
            · split
              · split
                · exact hrefused _ _
                · exact withSnapshot_tells fun snapshot => hsuccess (channelResponse_answers snapshot)
              · split
                · split
                  · exact hrefused _ _
                  · refine Section.returns_bind fun status => ?_
                    refine (actionResponse_answers _ _ status).tells fun hcode => ?_
                    cases status with
                    | ok value =>
                      have haccepted : ¬ (400 : Int) ≤ 202 := by decide
                      exact absurd hcode haccepted
                    | error error =>
                      unfold commandAnswer
                      dsimp only
                      split <;> exact ⟨_, _, rfl⟩
                · exact errorResponse_tells rfl (by decide) _ _

/-- The errors that a connection answers by itself. -/
def connectionErrors : List (Int × Bytes × Bytes) :=
  [(400, ascii "bad_request", ascii "incomplete HTTP request"),
    (431, ascii "headers_too_large", ascii "HTTP headers exceed the limit"),
    (400, ascii "bad_request", ascii "invalid request line"),
    (500, ascii "internal_error", ascii "cannot build HTTP response")]

/-- What a connection makes of the bytes that arrive: an error of its own, or a request. -/
theorem requestOutcome_cases (arrivals : List Arrival) :
    requestOutcome arrivals ∈ [incompleteRequest, headersTooLarge, invalidRequestLine] ∨
      ∃ method target, requestOutcome arrivals = .route method target := by
  unfold requestOutcome
  split
  · exact Or.inl List.mem_cons_self
  · unfold bufferOutcome
    split
    · exact Or.inl (List.mem_cons_of_mem _ List.mem_cons_self)
    · have hlast : invalidRequestLine ∈ [incompleteRequest, headersTooLarge, invalidRequestLine] :=
        List.mem_cons_of_mem _ (List.mem_cons_of_mem _ List.mem_cons_self)
      split
      · exact Or.inl hlast
      · rename_i line _ _
        rcases requestLine_cases line with hroute | hinvalid
        · exact Or.inr hroute
        · exact Or.inl (hinvalid ▸ hlast)

/-- Its errors are three of the four. -/
theorem requestOutcome_errors {arrivals : List Arrival} {statusCode : Int} {code message : Bytes}
    (h : requestOutcome arrivals = .error statusCode code message) :
    (statusCode, code, message) ∈ connectionErrors := by
  rcases requestOutcome_cases arrivals with herror | ⟨method, target, hroute⟩
  · have hlisted : ∀ outcome ∈ [incompleteRequest, headersTooLarge, invalidRequestLine],
        ∃ error ∈ connectionErrors, outcome = .error error.1 error.2.1 error.2.2 := by
      decide +kernel
    obtain ⟨error, hmem, heq⟩ := hlisted _ herror
    rw [h] at heq
    cases heq
    exact hmem
  · rw [h] at hroute
    cases hroute

/-- An error of a connection always fits a response. -/
theorem respondError_told {statusCode : Int} {code message : Bytes}
    (h : (statusCode, code, message) ∈ connectionErrors) :
    ∃ response, respondError statusCode code message = some response ∧ Told response := by
  have hbuilt : ∀ error ∈ connectionErrors,
      (errorResponse .cleared error.1 error.2.1 error.2.2).1 = .ok () ∧ error.1 ∈ answeredCodes := by
    decide +kernel
  obtain ⟨hok, hcode⟩ := hbuilt _ h
  refine ⟨_, ?_, errorResponse_tells rfl hcode code message hok⟩
  unfold respondError
  split
  · rename_i response heq
    rw [heq]
  · rename_i error response heq
    rw [heq] at hok
    cases hok

end LearnApue.Gateway
