import LearnApue.Gateway.HttpResponse
import LearnApue.Gateway.ManagerRuns
import LearnApue.Gateway.ManagerActs
import LearnApue.Gateway.RecordingStatus

set_option autoImplicit false

/-!
# Gateway: the HTTP router (`gw_http_route` and its callees in `http_server.c`)

A request is a section of the channel manager: what it reads and does, and the response
it makes.  The chain of tests on the path is the choice among the routes of `Route`
(`routePath_eq`).  Only a POST on an action path acts on the manager, and only on the
slot of the channel it names (`gwHttpRoute_contract`).
-/

namespace LearnApue.Gateway

open LearnApue.Foundation

/-! ## Targets -/

/-- `HTTP_TARGET_CAP`. -/
def httpTargetCap : Nat := 2048

/-- `'/'`. -/
def slash : Byte := 47

/-- The path that is routed: what stands before the first `?`. -/
def requestPath (target : Bytes) : Option Bytes :=
  if byte '?' ∈ target then
    let path := target.takeWhile fun b => b ≠ byte '?'
    if path.length = 0 ∨ path.length ≥ httpTargetCap then none else some path
  else some target

/-- `"/v1/channels/"`. -/
def channelsPath : Bytes := ascii "/v1/channels/"

/-- `parse_action_target`: the channel id and the action. -/
def parseActionTarget (target : Bytes) (capacity : Nat) : Option (Bytes × Bytes) :=
  if !startsWith target channelsPath then none
  else
    let remainder := target.drop 13
    let id := remainder.takeWhile fun b => b ≠ slash
    match remainder.dropWhile fun b => b ≠ slash with
    | [] => none
    | _ :: action =>
        if id = [] ∨ action = [] ∨ slash ∈ action then none
        else if id.length ≥ capacity then none
        else if action = ascii "start" ∨ action = ascii "stop" ∨ action = ascii "restart" then
          some (id, action)
        else none

/-- `parse_channel_leaf`: the channel id. -/
def parseChannelLeaf (target leaf : Bytes) (capacity : Nat) : Option Bytes :=
  if !startsWith target channelsPath then none
  else
    let remainder := target.drop 13
    let id := remainder.takeWhile fun b => b ≠ slash
    match remainder.dropWhile fun b => b ≠ slash with
    | [] => none
    | _ :: rest =>
        if id = [] ∨ rest ≠ leaf then none
        else if id.length ≥ capacity then none
        else some id

/-! ## Routing -/

/-- What a request is answered from besides the manager: what the sampler stored for each slot,
`statvfs`, and the file system. -/
structure RouteAnswers where
  sampled : Fin gwMaxChannels → GwProcessMetricsSnapshot
  statvfs : Option Statvfs
  page : PageAnswers

/-- The response before the routing. -/
def routeResponse : GwHttpResponse := { GwHttpResponse.cleared with statusCode := 200 }

/-- The answer to an unknown channel. -/
def channelNotFound : HttpResult :=
  errorResponse routeResponse 404 (ascii "not_found") (ascii "channel was not found")

/-- The body of `/v1/health`. -/
def healthResponse (snapshots : List GwChannelSnapshot) (recording : GwRecordingSnapshot) :
    HttpResult :=
  let running := snapshots.countP fun snapshot => snapshot.state = .running
  let failed := snapshots.countP fun snapshot => snapshot.state = .failed
  let healthy := failed = 0 ∧ recording.state ≠ .lowSpace ∧ recording.state ≠ .unavailable
  finishResponse routeResponse
    (bodyWriter
      |> jsonAppend (ascii "\x7b\"status\":\"" ++
          (if healthy then ascii "ok" else ascii "degraded") ++
          ascii "\",\"channel_count\":" ++ decimalNat snapshots.length ++
          ascii ",\"running\":" ++ decimalNat running ++ ascii ",\"failed\":" ++
          decimalNat failed ++ ascii ",\"recording\":")
      |> jsonString (gwRecordingStateString recording.state)
      |> jsonAppend (ascii "\x7d\n"))

/-- `true` or `false`. -/
def jsonBool (value : Bool) : Bytes := if value then ascii "true" else ascii "false"

/-- The body of `/v1/recording`. -/
def recordingResponse (recording : GwRecordingSnapshot) : HttpResult :=
  finishResponse routeResponse
    (bodyWriter
      |> jsonAppend (ascii "\x7b\"enabled\":" ++ jsonBool recording.enabled ++ ascii ",\"status\":")
      |> jsonString (gwRecordingStateString recording.state)
      |> jsonAppend (ascii ",\"filesystem_available\":" ++ jsonBool recording.filesystemAvailable ++
          ascii ",\"total_bytes\":" ++ decimalNat recording.totalBytes ++
          ascii ",\"available_bytes\":" ++ decimalNat recording.availableBytes ++
          ascii ",\"min_free_bytes\":" ++ decimalNat recording.minFreeBytes ++ ascii "\x7d\n"))

/-- The loop over the snapshots; `first` is `index == 0`. -/
def jsonChannels : Bool → List GwChannelSnapshot → BoundedWriter → BoundedWriter
  | _, [], writer => writer
  | first, snapshot :: rest, writer =>
      jsonChannels false rest
        (jsonSnapshot snapshot (if first then writer else jsonAppend (ascii ",") writer))

/-- The body of `/v1/channels`. -/
def channelsResponse (snapshots : List GwChannelSnapshot) : HttpResult :=
  finishResponse routeResponse
    (bodyWriter
      |> jsonAppend (ascii "\x7b\"channels\":[")
      |> jsonChannels true snapshots
      |> jsonAppend (ascii "]\x7d\n"))

/-- The body for one channel. -/
def channelResponse (snapshot : GwChannelSnapshot) : HttpResult :=
  finishResponse routeResponse (bodyWriter |> jsonSnapshot snapshot |> jsonAppend (ascii "\n"))

/-- The response to an action: the command's status decides. -/
def actionResponse (channelId action : Bytes) : Except GwError Unit → HttpResult
  | .error error =>
      if error.code = .errNotFound then channelNotFound
      else if error.code = .errConflict then
        errorResponse routeResponse 409 (ascii "state_conflict")
          (ascii "channel command conflicts with current state")
      else (.error error, routeResponse)
  | .ok _ =>
      finishResponse { routeResponse with statusCode := 202 }
        (bodyWriter
          |> jsonAppend (ascii "\x7b\"status\":\"accepted\",\"channel_id\":")
          |> jsonString channelId
          |> jsonAppend (ascii ",\"action\":")
          |> jsonString action
          |> jsonAppend (ascii "\x7d\n"))

/-- A response that needs the snapshot of a channel. -/
def withSnapshot (answers : RouteAnswers) (channelId : Bytes)
    (respond : GwChannelSnapshot → HttpResult) : Lifecycle HttpResult := do
  match ← .read (gwChannelManagerGetSnapshot answers.sampled channelId) with
  | .error _ => pure channelNotFound
  | .ok snapshot => pure (respond snapshot)

/-- The command of an action. -/
def runAction (channelId action : Bytes) : Lifecycle (Except GwError Unit) :=
  if action = ascii "start" then gwChannelManagerStartChannel channelId
  else if action = ascii "stop" then gwChannelManagerStopChannel channelId
  else gwChannelManagerRestartChannel channelId

/-- `gw_http_route` from the first test of the path on. -/
def routePath (answers : RouteAnswers) (recording : GwRecordingConfig) (method path : Bytes) :
    Lifecycle HttpResult :=
  if path = ascii "/v1/health" then
    if method ≠ ascii "GET" then pure (methodNotAllowed routeResponse true false)
    else do
      match ← .read (gwChannelManagerListSnapshots answers.sampled gwMaxChannels) with
      | .error error => pure (.error error, routeResponse)
      | .ok snapshots =>
          match gwRecordingSnapshotRead recording answers.statvfs with
          | .error error => pure (.error error, routeResponse)
          | .ok recordingSnapshot => pure (healthResponse snapshots recordingSnapshot)
  else if path = ascii "/v1/recording" then
    if method ≠ ascii "GET" then pure (methodNotAllowed routeResponse true false)
    else
      match gwRecordingSnapshotRead recording answers.statvfs with
      | .error error => pure (.error error, routeResponse)
      | .ok recordingSnapshot => pure (recordingResponse recordingSnapshot)
  else if path = ascii "/v1/channels" then
    if method ≠ ascii "GET" then pure (methodNotAllowed routeResponse true false)
    else do
      match ← .read (gwChannelManagerListSnapshots answers.sampled gwMaxChannels) with
      | .error error => pure (.error error, routeResponse)
      | .ok snapshots => pure (channelsResponse snapshots)
  else if startsWith path (ascii "/view/") ∧ path.drop 6 ≠ [] ∧ slash ∉ path.drop 6 then
    if method ≠ ascii "GET" then pure (methodNotAllowed routeResponse true false)
    else withSnapshot answers (path.drop 6) fun _ => gwHttpRenderViewPage answers.page
  else
    match parseChannelLeaf path (ascii "metrics") gwIdCap with
    | some channelId =>
        if method ≠ ascii "GET" then pure (methodNotAllowed routeResponse true false)
        else withSnapshot answers channelId gwHttpRenderChannelMetrics
    | none =>
        if startsWith path channelsPath ∧ path.drop 13 ≠ [] ∧ slash ∉ path.drop 13 then
          if method ≠ ascii "GET" then pure (methodNotAllowed routeResponse true false)
          else withSnapshot answers (path.drop 13) channelResponse
        else
          match parseActionTarget path gwIdCap with
          | some (channelId, action) =>
              if method ≠ ascii "POST" then pure (methodNotAllowed routeResponse false true)
              else do
                let status ← runAction channelId action
                pure (actionResponse channelId action status)
          | none =>
              pure (errorResponse routeResponse 404 (ascii "not_found")
                (ascii "route was not found"))

/-- `gw_http_route`. -/
def gwHttpRoute (answers : RouteAnswers) (recording : GwRecordingConfig) (method target : Bytes) :
    Lifecycle HttpResult :=
  match requestPath target with
  | none =>
      pure (errorResponse routeResponse 400 (ascii "bad_request")
        (ascii "request target is invalid"))
  | some path => routePath answers recording method path

/-! ## Routes -/

/-- The actions on a channel. -/
inductive RouteAction where
  | start
  | stop
  | restart
  deriving DecidableEq, Repr

/-- The word of an action in a path. -/
def RouteAction.word : RouteAction → Bytes
  | .start => ascii "start"
  | .stop => ascii "stop"
  | .restart => ascii "restart"

/-- The routes. -/
inductive Route where
  | health
  | recording
  | channels
  | view (channelId : Bytes)
  | metrics (channelId : Bytes)
  | channel (channelId : Bytes)
  | action (channelId : Bytes) (command : RouteAction)
  deriving DecidableEq

/-- A non-empty segment of a path. -/
def Segment (text : Bytes) : Prop := text ≠ [] ∧ slash ∉ text

namespace Route

/-- The path of a route. -/
def path : Route → Bytes
  | .health => ascii "/v1/health"
  | .recording => ascii "/v1/recording"
  | .channels => ascii "/v1/channels"
  | .view channelId => ascii "/view/" ++ channelId
  | .metrics channelId => channelsPath ++ channelId ++ slash :: ascii "metrics"
  | .channel channelId => channelsPath ++ channelId
  | .action channelId command => channelsPath ++ channelId ++ slash :: command.word

/-- The routes that are defined: a channel id is one segment, and shorter than `GW_ID_CAP` where
more follows it. -/
def Defined : Route → Prop
  | .health | .recording | .channels => True
  | .view channelId | .channel channelId => Segment channelId
  | .metrics channelId | .action channelId _ => Segment channelId ∧ channelId.length < gwIdCap

/-- The method of a route. -/
def accepts : Route → Bytes
  | .action _ _ => ascii "POST"
  | _ => ascii "GET"

/-- What a request with the right method does. -/
def serve (answers : RouteAnswers) (recording : GwRecordingConfig) : Route → Lifecycle HttpResult
  | .health => do
      match ← .read (gwChannelManagerListSnapshots answers.sampled gwMaxChannels) with
      | .error error => pure (.error error, routeResponse)
      | .ok snapshots =>
          match gwRecordingSnapshotRead recording answers.statvfs with
          | .error error => pure (.error error, routeResponse)
          | .ok recordingSnapshot => pure (healthResponse snapshots recordingSnapshot)
  | .recording =>
      match gwRecordingSnapshotRead recording answers.statvfs with
      | .error error => pure (.error error, routeResponse)
      | .ok recordingSnapshot => pure (recordingResponse recordingSnapshot)
  | .channels => do
      match ← .read (gwChannelManagerListSnapshots answers.sampled gwMaxChannels) with
      | .error error => pure (.error error, routeResponse)
      | .ok snapshots => pure (channelsResponse snapshots)
  | .view channelId => withSnapshot answers channelId fun _ => gwHttpRenderViewPage answers.page
  | .metrics channelId => withSnapshot answers channelId gwHttpRenderChannelMetrics
  | .channel channelId => withSnapshot answers channelId channelResponse
  | .action channelId command => do
      let status ← runAction channelId command.word
      pure (actionResponse channelId command.word status)

end Route

/-- A request for a route. -/
def requestRoute (answers : RouteAnswers) (recording : GwRecordingConfig) (method : Bytes)
    (route : Route) : Lifecycle HttpResult :=
  if method ≠ route.accepts then
    pure (methodNotAllowed routeResponse (route.accepts = ascii "GET")
      (route.accepts = ascii "POST"))
  else route.serve answers recording

section Routing

variable {answers : RouteAnswers} {recording : GwRecordingConfig} {method path : Bytes}

theorem startsWith_append (front rest : Bytes) : startsWith (front ++ rest) front = true :=
  startsWith_iff.mpr (List.prefix_append front rest)

/-- A segment and what follows it. -/
theorem Segment.split {text : Bytes} (h : Segment text) (rest : Bytes) :
    (text ++ slash :: rest).takeWhile (fun b => b ≠ slash) = text ∧
      (text ++ slash :: rest).dropWhile (fun b => b ≠ slash) = slash :: rest := by
  have hall : ∀ b ∈ text, decide (b ≠ slash) = true :=
    fun b hb => decide_eq_true fun heq => h.2 (heq ▸ hb)
  rw [List.takeWhile_append_of_pos hall, List.dropWhile_append_of_pos hall]
  simp

theorem drop_channelsPath (rest : Bytes) : (channelsPath ++ rest).drop 13 = rest :=
  List.drop_left' rfl

/-- A text that a slash cuts. -/
theorem segment_of_dropWhile {text rest : Bytes} {b : Byte}
    (h : text.dropWhile (fun b => b ≠ slash) = b :: rest) :
    b = slash ∧ text = text.takeWhile (fun b => b ≠ slash) ++ slash :: rest ∧
      slash ∉ text.takeWhile (fun b => b ≠ slash) := by
  have hb : b = slash := by
    have hhead := List.head?_dropWhile_not (fun b => decide (b ≠ slash)) text
    rw [h] at hhead
    simpa using hhead
  refine ⟨hb, ?_, fun hmem => ?_⟩
  · have hwhole : text.takeWhile (fun b => b ≠ slash) ++ text.dropWhile (fun b => b ≠ slash) = text :=
      List.takeWhile_append_dropWhile
    rw [h, hb] at hwhole
    exact hwhole.symm
  · simpa using List.mem_takeWhile_imp hmem

theorem startsWith_channelsPath (h : startsWith path channelsPath = true) :
    path = channelsPath ++ path.drop 13 := by
  obtain ⟨rest, rfl⟩ := startsWith_iff.mp h
  rw [drop_channelsPath]

/-- `parse_channel_leaf` accepts exactly a channel's leaf. -/
theorem parseChannelLeaf_iff {channelId leaf : Bytes} {capacity : Nat} :
    parseChannelLeaf path leaf capacity = some channelId ↔
      path = channelsPath ++ channelId ++ slash :: leaf ∧ Segment channelId ∧
        channelId.length < capacity := by
  constructor
  · intro h
    unfold parseChannelLeaf at h
    cases hstart : startsWith path channelsPath with
    | false => simp [hstart] at h
    | true =>
      simp only [hstart, Bool.not_true, Bool.false_eq_true, if_false] at h
      split at h
      · cases h
      · rename_i b rest hrest
        obtain ⟨-, hsplit, hslash⟩ := segment_of_dropWhile hrest
        split at h
        · cases h
        · rename_i hleaf
          obtain ⟨hid, hleaf⟩ := not_or.mp hleaf
          split at h
          · cases h
          · rename_i hlength
            rw [← Option.some.inj h]
            refine ⟨?_, ⟨hid, hslash⟩, Nat.lt_of_not_ge hlength⟩
            rw [← not_not.mp hleaf, List.append_assoc, ← hsplit]
            exact startsWith_channelsPath hstart
  · rintro ⟨rfl, hsegment, hlength⟩
    obtain ⟨hid, hrest⟩ := hsegment.split leaf
    unfold parseChannelLeaf
    rw [List.append_assoc, startsWith_append, drop_channelsPath]
    simp only [Bool.not_true, Bool.false_eq_true, if_false, hid, hrest]
    rw [if_neg (by simp [hsegment.1]), if_neg (Nat.not_le.mpr hlength)]

theorem action_word_iff {word : Bytes} :
    (word = ascii "start" ∨ word = ascii "stop" ∨ word = ascii "restart") ↔
      ∃ action : RouteAction, word = action.word := by
  constructor
  · rintro (rfl | rfl | rfl)
    · exact ⟨.start, rfl⟩
    · exact ⟨.stop, rfl⟩
    · exact ⟨.restart, rfl⟩
  · rintro ⟨action, rfl⟩
    cases action with
    | start => exact Or.inl rfl
    | stop => exact Or.inr (Or.inl rfl)
    | restart => exact Or.inr (Or.inr rfl)

theorem RouteAction.word_segment (action : RouteAction) : Segment action.word := by
  cases action <;> exact ⟨by decide, by decide⟩

/-- `parse_action_target` accepts exactly an action on a channel. -/
theorem parseActionTarget_iff {channelId word : Bytes} {capacity : Nat} :
    parseActionTarget path capacity = some (channelId, word) ↔
      path = channelsPath ++ channelId ++ slash :: word ∧ Segment channelId ∧
        channelId.length < capacity ∧ ∃ action : RouteAction, word = action.word := by
  constructor
  · intro h
    unfold parseActionTarget at h
    cases hstart : startsWith path channelsPath with
    | false => simp [hstart] at h
    | true =>
      simp only [hstart, Bool.not_true, Bool.false_eq_true, if_false] at h
      split at h
      · cases h
      · rename_i b rest hrest
        obtain ⟨-, hsplit, hslash⟩ := segment_of_dropWhile hrest
        split at h
        · cases h
        · rename_i hsome
          split at h
          · cases h
          · rename_i hlength
            split at h
            · rename_i hword
              obtain ⟨rfl, rfl⟩ := Prod.mk.inj (Option.some.inj h)
              refine ⟨?_, ⟨fun hid => hsome (Or.inl hid), hslash⟩, Nat.lt_of_not_ge hlength,
                action_word_iff.mp hword⟩
              rw [List.append_assoc, ← hsplit]
              exact startsWith_channelsPath hstart
            · cases h
  · rintro ⟨rfl, hsegment, hlength, action, rfl⟩
    obtain ⟨hid, hrest⟩ := hsegment.split action.word
    obtain ⟨hsome, hslash⟩ := action.word_segment
    unfold parseActionTarget
    rw [List.append_assoc, startsWith_append, drop_channelsPath]
    simp only [Bool.not_true, Bool.false_eq_true, if_false, hid, hrest]
    rw [if_neg (by simp [hsegment.1, hsome, hslash]), if_neg (Nat.not_le.mpr hlength),
      if_pos (action_word_iff.mpr ⟨action, rfl⟩)]

/-! ## The chain of tests -/

theorem append_ne {front whole : Bytes} (h : ¬ front <+: whole) (rest : Bytes) :
    front ++ rest ≠ whole := fun heq => h ⟨rest, heq⟩

/-- A path under `/v1/channels/` passes none of the earlier tests. -/
theorem routePath_channels (rest : Bytes) :
    channelsPath ++ rest ≠ ascii "/v1/health" ∧ channelsPath ++ rest ≠ ascii "/v1/recording" ∧
      channelsPath ++ rest ≠ ascii "/v1/channels" ∧
      ¬ startsWith (channelsPath ++ rest) (ascii "/view/") = true := by
  refine ⟨append_ne (by decide) rest, append_ne (by decide) rest, append_ne (by decide) rest, ?_⟩
  intro hstart
  have hview := startsWith_iff.mp hstart
  exact absurd (List.prefix_of_prefix_length_le hview (List.prefix_append channelsPath rest)
    (by decide)) (by decide)

theorem parseChannelLeaf_segment {channelId leaf : Bytes} (h : Segment channelId) (capacity : Nat) :
    parseChannelLeaf (channelsPath ++ channelId) leaf capacity = none := by
  by_contra hsome
  obtain ⟨found, hfound⟩ := Option.ne_none_iff_exists'.mp hsome
  obtain ⟨hpath, -, -⟩ := parseChannelLeaf_iff.mp hfound
  rw [List.append_assoc] at hpath
  refine h.2 ?_
  rw [List.append_cancel_left hpath]
  simp

theorem parseChannelLeaf_other {channelId word leaf : Bytes} (h : Segment channelId)
    (hword : word ≠ leaf) (capacity : Nat) :
    parseChannelLeaf (channelsPath ++ channelId ++ slash :: word) leaf capacity = none := by
  by_contra hsome
  obtain ⟨found, hfound⟩ := Option.ne_none_iff_exists'.mp hsome
  obtain ⟨hpath, hsegment, -⟩ := parseChannelLeaf_iff.mp hfound
  rw [List.append_assoc, List.append_assoc] at hpath
  have hrest := (h.split word).2
  rw [List.append_cancel_left hpath, (hsegment.split leaf).2] at hrest
  exact hword (List.cons.inj hrest).2.symm

/-- The path of a route is recognised as the route's. -/
theorem routePath_route {route : Route} (h : route.Defined) :
    routePath answers recording method route.path =
      requestRoute answers recording method route := by
  cases route with
  | health => rfl
  | recording => rfl
  | channels => rfl
  | view channelId =>
    have hpath : (ascii "/view/" ++ channelId).drop 6 = channelId := List.drop_left' rfl
    rw [Route.path, routePath, if_neg (append_ne (by decide) _), if_neg (append_ne (by decide) _),
      if_neg (append_ne (by decide) _), hpath, if_pos ⟨startsWith_append _ _, h⟩]
    rfl
  | metrics channelId =>
    obtain ⟨hhealth, hrecording, hchannels, hview⟩ :=
      routePath_channels (channelId ++ slash :: ascii "metrics")
    rw [← List.append_assoc] at hhealth hrecording hchannels hview
    have hleaf := @parseChannelLeaf_iff _ channelId (ascii "metrics") gwIdCap |>.mpr ⟨rfl, h⟩
    rw [Route.path, routePath, if_neg hhealth, if_neg hrecording, if_neg hchannels, if_neg (fun hpath => hview hpath.1), hleaf]
    rfl
  | channel channelId =>
    obtain ⟨hhealth, hrecording, hchannels, hview⟩ := routePath_channels channelId
    rw [Route.path, routePath, if_neg hhealth, if_neg hrecording, if_neg hchannels, if_neg (fun hpath => hview hpath.1),
      parseChannelLeaf_segment h, drop_channelsPath]
    dsimp only
    rw [if_pos ⟨startsWith_append _ _, h⟩]
    rfl
  | action channelId command =>
    obtain ⟨hhealth, hrecording, hchannels, hview⟩ :=
      routePath_channels (channelId ++ slash :: command.word)
    rw [← List.append_assoc] at hhealth hrecording hchannels hview
    have hmetrics : command.word ≠ ascii "metrics" := by
      cases command <;> decide
    have hchannel : ¬ (startsWith (channelsPath ++ channelId ++ slash :: command.word) channelsPath =
        true ∧ (channelsPath ++ channelId ++ slash :: command.word).drop 13 ≠ [] ∧
        slash ∉ (channelsPath ++ channelId ++ slash :: command.word).drop 13) := by
      rw [List.append_assoc, drop_channelsPath]
      exact fun hpath => hpath.2.2 (by simp)
    have haction := @parseActionTarget_iff _ channelId command.word gwIdCap |>.mpr
      ⟨rfl, h.1, h.2, command, rfl⟩
    rw [Route.path, routePath, if_neg hhealth, if_neg hrecording, if_neg hchannels, if_neg (fun hpath => hview hpath.1),
      parseChannelLeaf_other h.1 hmetrics, haction]
    dsimp only
    rw [if_neg hchannel]
    rfl

/-- Any other path is not found. -/
theorem routePath_unknown (h : ∀ route : Route, route.Defined → path ≠ route.path) :
    routePath answers recording method path =
      pure (errorResponse routeResponse 404 (ascii "not_found") (ascii "route was not found")) := by
  have hview : ¬ (startsWith path (ascii "/view/") = true ∧ path.drop 6 ≠ [] ∧
      slash ∉ path.drop 6) := by
    rintro ⟨hstart, hsegment⟩
    obtain ⟨rest, rfl⟩ := startsWith_iff.mp hstart
    have hpath : (ascii "/view/" ++ rest).drop 6 = rest := List.drop_left' rfl
    rw [hpath] at hsegment
    exact h (.view rest) hsegment rfl
  have hmetrics : parseChannelLeaf path (ascii "metrics") gwIdCap = none := by
    by_contra hsome
    obtain ⟨found, hfound⟩ := Option.ne_none_iff_exists'.mp hsome
    obtain ⟨hpath, hdefined⟩ := parseChannelLeaf_iff.mp hfound
    exact h (.metrics found) hdefined hpath
  have hchannel : ¬ (startsWith path channelsPath = true ∧ path.drop 13 ≠ [] ∧
      slash ∉ path.drop 13) := by
    rintro ⟨hstart, hsegment⟩
    exact h (.channel (path.drop 13)) hsegment (startsWith_channelsPath hstart)
  have haction : parseActionTarget path gwIdCap = none := by
    by_contra hsome
    obtain ⟨⟨found, word⟩, hfound⟩ := Option.ne_none_iff_exists'.mp hsome
    obtain ⟨hpath, hsegment, hlength, command, rfl⟩ := parseActionTarget_iff.mp hfound
    exact h (.action found command) ⟨hsegment, hlength⟩ hpath
  have hhealth : path ≠ ascii "/v1/health" := h .health trivial
  have hrecording : path ≠ ascii "/v1/recording" := h .recording trivial
  have hchannels : path ≠ ascii "/v1/channels" := h .channels trivial
  rw [routePath, if_neg hhealth, if_neg hrecording, if_neg hchannels, if_neg hview, hmetrics]
  dsimp only
  rw [if_neg hchannel, haction]

/-! ## What a request returns -/

theorem finishResponse_statusCode (response : GwHttpResponse) (writer : BoundedWriter) :
    (finishResponse response writer).2.statusCode = response.statusCode := by
  unfold finishResponse
  split <;> rfl

theorem finishResponse_allow (response : GwHttpResponse) (writer : BoundedWriter) :
    (finishResponse response writer).2.allowGet = response.allowGet ∧
      (finishResponse response writer).2.allowPost = response.allowPost := by
  unfold finishResponse
  split <;> exact ⟨rfl, rfl⟩

theorem errorResponse_statusCode (response : GwHttpResponse) (statusCode : Int) (code message : Bytes) :
    (errorResponse response statusCode code message).2.statusCode = statusCode :=
  finishResponse_statusCode _ _

theorem routeResponse_statusCode : routeResponse.statusCode ≠ 405 := by decide

theorem actionResponse_statusCode (channelId action : Bytes) (status : Except GwError Unit) :
    (actionResponse channelId action status).2.statusCode ≠ 405 := by
  cases status with
  | ok value =>
    rw [actionResponse, finishResponse_statusCode]
    decide
  | error error =>
    unfold actionResponse
    dsimp only
    split
    · rw [channelNotFound, errorResponse_statusCode]
      decide
    · split
      · rw [errorResponse_statusCode]
        decide
      · exact routeResponse_statusCode

theorem gwHttpRenderViewPage_statusCode (page : PageAnswers) :
    (gwHttpRenderViewPage page).2.statusCode ≠ 405 := by
  unfold gwHttpRenderViewPage
  dsimp only
  split <;> simp [GwHttpResponse.cleared]

theorem withSnapshot_statusCode {channelId : Bytes} {respond : GwChannelSnapshot → HttpResult}
    (h : ∀ snapshot, (respond snapshot).2.statusCode ≠ 405) :
    (withSnapshot answers channelId respond).Returns fun result => result.2.statusCode ≠ 405 := by
  refine Section.returns_bind fun found => ?_
  cases found with
  | error error =>
    change channelNotFound.2.statusCode ≠ 405
    rw [channelNotFound, errorResponse_statusCode]
    decide
  | ok snapshot => exact h snapshot

/-- A request with the right method is never answered with 405. -/
theorem serve_statusCode (route : Route) :
    (route.serve answers recording).Returns fun result => result.2.statusCode ≠ 405 := by
  have hfinish : ∀ writer, (finishResponse routeResponse writer).2.statusCode ≠ 405 := by
    intro writer
    rw [finishResponse_statusCode]
    exact routeResponse_statusCode
  cases route with
  | health =>
    refine Section.returns_bind fun listed => ?_
    cases listed with
    | error error => exact routeResponse_statusCode
    | ok snapshots =>
      dsimp only
      cases gwRecordingSnapshotRead recording answers.statvfs with
      | error error => exact routeResponse_statusCode
      | ok recordingSnapshot => exact hfinish _
  | recording =>
    unfold Route.serve
    cases gwRecordingSnapshotRead recording answers.statvfs with
    | error error => exact routeResponse_statusCode
    | ok recordingSnapshot => exact hfinish _
  | channels =>
    refine Section.returns_bind fun listed => ?_
    cases listed with
    | error error => exact routeResponse_statusCode
    | ok snapshots => exact hfinish _
  | view channelId => exact withSnapshot_statusCode fun _ => gwHttpRenderViewPage_statusCode _
  | metrics channelId =>
    refine withSnapshot_statusCode fun snapshot => ?_
    rw [gwHttpRenderChannelMetrics, finishResponse_statusCode]
    decide
  | channel channelId => exact withSnapshot_statusCode fun _ => hfinish _
  | action channelId command =>
    exact Section.returns_bind fun status => actionResponse_statusCode _ _ status

/-! ## What a request does -/

/-- A route that is no action only reads. -/
theorem serve_reads {R : GwChannelManager → GwChannelManager → Prop}
    (hrefl : ∀ manager, R manager manager) {route : Route} (h : route.accepts = ascii "GET") :
    (route.serve answers recording).Acts R := by
  have hsnapshot : ∀ (channelId : Bytes) (respond : GwChannelSnapshot → HttpResult),
      (withSnapshot answers channelId respond).Acts R := by
    intro channelId respond
    refine Section.acts_bind (Section.acts_read hrefl _) fun found => ?_
    cases found <;> exact trivial
  cases route with
  | health =>
    refine Section.acts_bind (Section.acts_read hrefl _) fun listed => ?_
    cases listed with
    | error error => exact trivial
    | ok snapshots =>
      dsimp only
      cases gwRecordingSnapshotRead recording answers.statvfs <;> exact trivial
  | recording =>
    unfold Route.serve
    cases gwRecordingSnapshotRead recording answers.statvfs <;> exact trivial
  | channels =>
    refine Section.acts_bind (Section.acts_read hrefl _) fun listed => ?_
    cases listed <;> exact trivial
  | view channelId => exact hsnapshot _ _
  | metrics channelId => exact hsnapshot _ _
  | channel channelId => exact hsnapshot _ _
  | action channelId command =>
    have hpost : ascii "POST" ≠ ascii "GET" := by decide
    exact absurd h hpost

section Command

variable {stoppable : Prop} {created : Option Errno → Prop} {manager later : GwChannelManager}
  {channelId : Bytes}

/-- The slot of a channel does not move while the lock is held. -/
theorem findEntry_later (h : (managerSetting stoppable created).Later manager later)
    (channelId : Bytes) : findEntry later channelId = findEntry manager channelId := by
  induction h with
  | refl => rfl
  | tail _ hstep ih => rw [interferes_findEntry hstep, ih]

/-- The slot that `command_entry` finds is the channel's. -/
theorem commandEntry_found {slot : Fin gwMaxChannels}
    (h : Section.Runs (managerSetting stoppable created) (commandEntry channelId) manager
      (.ok slot) later) : findEntry manager channelId = some slot := by
  obtain ⟨first, hfirst, h⟩ := Section.runs_read_bind h
  obtain ⟨second, hsecond, h⟩ := Section.runs_read_bind h
  split at h
  · cases h
  · obtain ⟨third, hthird, h⟩ := Section.runs_read_bind h
    have hlater := (hfirst.trans hsecond).trans hthird
    rw [← findEntry_later hlater]
    cases hfound : findEntry third channelId with
    | none =>
      rw [hfound] at h
      cases h
    | some found =>
      rw [hfound] at h
      cases h
      rfl

/-- What a command may do to a manager: act on the slot of its channel. -/
def OnChannel (manager : GwChannelManager) (channelId : Bytes) (before after : GwChannelManager) :
    Prop :=
  ∃ slot, findEntry manager channelId = some slot ∧ OnSlot RunAct slot before after

theorem IsCommand.actsIn {body : Lifecycle (Except GwError Unit)} (h : IsCommand channelId body)
    (manager : GwChannelManager) :
    body.ActsIn (managerSetting stoppable created)
      (fun before after => after = before ∨ OnChannel manager channelId before after) manager := by
  obtain ⟨rest, rfl, hrest⟩ := h
  refine Section.actsIn_bind
    ((commandEntry_acts (fun _ => Or.inl rfl) channelId).actsIn manager) ?_
  intro found later hrun
  cases found with
  | error error => exact trivial
  | ok slot =>
    have hslot := commandEntry_found hrun
    exact ((hrest slot).mono fun _ _ hact => Or.inr ⟨slot, hslot, hact⟩).actsIn later

theorem runAction_command (channelId word : Bytes) : IsCommand channelId (runAction channelId word) := by
  unfold runAction
  split
  · exact (gwChannelManagerStartChannel_body channelId).isCommand
  · split
    · exact (gwChannelManagerStopChannel_body channelId).isCommand
    · exact (gwChannelManagerRestartChannel_body channelId).isCommand

end Command

/-! ## The contract -/

/-- The part of a target before the first `?`. -/
def pathOf (target : Bytes) : Bytes := target.takeWhile fun b => b ≠ byte '?'

theorem pathOf_of_notMem {target : Bytes} (h : byte '?' ∉ target) : pathOf target = target := by
  refine List.takeWhile_eq_self_iff.mpr fun b hb => ?_
  exact decide_eq_true fun heq => h (heq ▸ hb)

theorem requestPath_eq {target : Bytes} (h : target.length < httpTargetCap) :
    requestPath target =
      if byte '?' ∈ target ∧ pathOf target = [] then none else some (pathOf target) := by
  have hlength : (pathOf target).length ≤ target.length := (List.takeWhile_prefix _).length_le
  have hcut : requestPath target =
      if byte '?' ∈ target then
        if (pathOf target).length = 0 ∨ (pathOf target).length ≥ httpTargetCap then none
        else some (pathOf target)
      else some target := rfl
  rw [hcut]
  by_cases hquery : byte '?' ∈ target
  · rw [if_pos hquery]
    by_cases hempty : pathOf target = []
    · rw [if_pos (Or.inl (by rw [hempty]; rfl)), if_pos ⟨hquery, hempty⟩]
    · have hsome : ¬ ((pathOf target).length = 0 ∨ (pathOf target).length ≥ httpTargetCap) :=
        not_or.mpr ⟨fun hzero => hempty (List.eq_nil_of_length_eq_zero hzero), by omega⟩
      rw [if_neg hsome, if_neg fun hboth => hempty hboth.2]
  · rw [if_neg hquery, if_neg fun hboth => hquery hboth.1, pathOf_of_notMem hquery]

theorem Route.path_ne_nil (route : Route) : route.path ≠ [] := by
  cases route <;> simp [Route.path, channelsPath, ascii]

/-- A request for a route. -/
theorem gwHttpRoute_route {target : Bytes} (h : target.length < httpTargetCap) {route : Route}
    (hdefined : route.Defined) (hpath : pathOf target = route.path) :
    gwHttpRoute answers recording method target = requestRoute answers recording method route := by
  have hsome : ¬ (byte '?' ∈ target ∧ pathOf target = []) :=
    fun hnone => route.path_ne_nil (hpath ▸ hnone.2)
  rw [gwHttpRoute, requestPath_eq h, if_neg hsome, hpath]
  exact routePath_route hdefined

/-- Any other request is answered with 400 or 404 at once. -/
theorem gwHttpRoute_unknown {target : Bytes} (h : target.length < httpTargetCap)
    (hunknown : ∀ route : Route, route.Defined → pathOf target ≠ route.path) :
    ∃ result : HttpResult, result.2.statusCode ≠ 405 ∧
      gwHttpRoute answers recording method target = pure result := by
  have herror : ∀ (statusCode : Int) (code message : Bytes), statusCode ≠ 405 →
      (errorResponse routeResponse statusCode code message).2.statusCode ≠ 405 := by
    intro statusCode code message hcode
    rw [errorResponse_statusCode]
    exact hcode
  rw [gwHttpRoute, requestPath_eq h]
  split
  · rename_i hnone
    split at hnone
    · exact ⟨_, herror 400 _ _ (by decide), rfl⟩
    · cases hnone
  · rename_i path hpath
    split at hpath
    · cases hpath
    · rw [← Option.some.inj hpath]
      exact ⟨_, herror 404 _ _ (by decide), routePath_unknown hunknown⟩

/-- What a request may do to a manager: a POST on an action path acts on the slot of the channel
it names. -/
def RequestAct (method target : Bytes) (manager before after : GwChannelManager) : Prop :=
  after = before ∨
    ∃ channelId command, method = ascii "POST" ∧ (Route.action channelId command).Defined ∧
      pathOf target = (Route.action channelId command).path ∧
      OnChannel manager channelId before after

section Contract

variable {stoppable : Prop} {created : Option Errno → Prop} {manager later : GwChannelManager}
  {target : Bytes}

theorem gwHttpRoute_acts (h : target.length < httpTargetCap) :
    (gwHttpRoute answers recording method target).ActsIn (managerSetting stoppable created)
      (RequestAct method target manager) manager := by
  have hrefl : ∀ before, RequestAct method target manager before before := fun _ => Or.inl rfl
  by_cases hknown : ∃ route : Route, route.Defined ∧ pathOf target = route.path
  · obtain ⟨route, hdefined, hpath⟩ := hknown
    rw [gwHttpRoute_route h hdefined hpath, requestRoute]
    by_cases hmethod : method = route.accepts
    · rw [if_neg (not_not_intro hmethod)]
      by_cases hget : route.accepts = ascii "GET"
      · exact (serve_reads hrefl hget).actsIn manager
      · cases route with
        | action channelId command =>
          refine Section.actsIn_bind ?_ fun status later _ => trivial
          have hcommand := @IsCommand.actsIn stoppable created channelId _
            (runAction_command channelId command.word) manager
          refine hcommand.mono fun before after hact => ?_
          exact hact.imp_right fun hchannel => ⟨channelId, command, hmethod, hdefined, hpath, hchannel⟩
        | _ => exact absurd rfl hget
    · rw [if_pos hmethod]
      exact trivial
  · obtain ⟨result, -, hrequest⟩ := @gwHttpRoute_unknown answers recording method target h
      fun route hdefined hpath => hknown ⟨route, hdefined, hpath⟩
    rw [hrequest]
    exact trivial

theorem requestRoute_statusCode {route : Route} {result : HttpResult}
    (hrun : Section.Runs (managerSetting stoppable created)
      (requestRoute answers recording method route) manager result later) :
    (result.2.statusCode = 405 ↔ method ≠ route.accepts) ∧
      (result.2.statusCode = 405 → result.2.allowGet = decide (route.accepts = ascii "GET") ∧
        result.2.allowPost = decide (route.accepts = ascii "POST")) := by
  unfold requestRoute at hrun
  by_cases hmethod : method = route.accepts
  · rw [if_neg (not_not_intro hmethod)] at hrun
    have hother := (serve_statusCode route).run hrun
    exact ⟨⟨fun heq => absurd heq hother, fun hne => absurd hmethod hne⟩,
      fun heq => absurd heq hother⟩
  · rw [if_pos hmethod] at hrun
    have hresult : result = methodNotAllowed routeResponse (route.accepts = ascii "GET")
        (route.accepts = ascii "POST") := by
      cases hrun
      rfl
    have hcode : result.2.statusCode = 405 := by
      rw [hresult]
      exact errorResponse_statusCode _ _ _ _
    refine ⟨⟨fun _ => hmethod, fun _ => hcode⟩, fun _ => ?_⟩
    rw [hresult]
    exact finishResponse_allow _ _

theorem gwHttpRoute_statusCode (h : target.length < httpTargetCap) {result : HttpResult}
    (hrun : Section.Runs (managerSetting stoppable created)
      (gwHttpRoute answers recording method target) manager result later) :
    (result.2.statusCode = 405 ↔
      ∃ route : Route, route.Defined ∧ pathOf target = route.path ∧ method ≠ route.accepts) ∧
    (result.2.statusCode = 405 → ∀ route : Route, route.Defined → pathOf target = route.path →
      result.2.allowGet = decide (route.accepts = ascii "GET") ∧
        result.2.allowPost = decide (route.accepts = ascii "POST")) := by
  have hroute : ∀ route : Route, route.Defined → pathOf target = route.path →
      (result.2.statusCode = 405 ↔ method ≠ route.accepts) ∧
        (result.2.statusCode = 405 → result.2.allowGet = decide (route.accepts = ascii "GET") ∧
          result.2.allowPost = decide (route.accepts = ascii "POST")) := by
    intro route hdefined hpath
    rw [gwHttpRoute_route h hdefined hpath] at hrun
    exact requestRoute_statusCode hrun
  refine ⟨⟨fun hcode => ?_, ?_⟩, fun hcode route hdefined hpath => (hroute route hdefined hpath).2 hcode⟩
  · by_cases hknown : ∃ route : Route, route.Defined ∧ pathOf target = route.path
    · obtain ⟨route, hdefined, hpath⟩ := hknown
      exact ⟨route, hdefined, hpath, (hroute route hdefined hpath).1.mp hcode⟩
    · obtain ⟨other, hother, hrequest⟩ := @gwHttpRoute_unknown answers recording method target h
        fun route hdefined hpath => hknown ⟨route, hdefined, hpath⟩
      rw [hrequest] at hrun
      cases hrun
      exact absurd hcode hother
  · rintro ⟨route, hdefined, hpath, hmethod⟩
    exact (hroute route hdefined hpath).1.mpr hmethod

theorem gwHttpRoute_query (h : target.length < httpTargetCap) {target' : Bytes}
    (h' : target'.length < httpTargetCap) (hpath : pathOf target' = pathOf target)
    (hsome : pathOf target ≠ []) :
    gwHttpRoute answers recording method target' = gwHttpRoute answers recording method target := by
  have hrouted : ∀ text : Bytes, text.length < httpTargetCap → pathOf text ≠ [] →
      gwHttpRoute answers recording method text =
        routePath answers recording method (pathOf text) := by
    intro text hlength htext
    rw [gwHttpRoute, requestPath_eq hlength, if_neg fun hnone => htext hnone.2]
  rw [hrouted target' h' (hpath ▸ hsome), hrouted target h hsome, hpath]

end Contract

/-- Only a POST on an action path changes the manager, and only at the named channel; 405 says that
a route has another method; and what stands after a `?` makes no difference. -/
theorem gwHttpRoute_contract {stoppable : Prop} {created : Option Errno → Prop}
    (answers : RouteAnswers) (recording : GwRecordingConfig) (method : Bytes) {target : Bytes}
    (htarget : target.length < httpTargetCap) (manager : GwChannelManager) :
    (gwHttpRoute answers recording method target).ActsIn (managerSetting stoppable created)
        (RequestAct method target manager) manager ∧
      (∀ result later, Section.Runs (managerSetting stoppable created)
          (gwHttpRoute answers recording method target) manager result later →
        (result.2.statusCode = 405 ↔
          ∃ route : Route, route.Defined ∧ pathOf target = route.path ∧ method ≠ route.accepts) ∧
        (result.2.statusCode = 405 → ∀ route : Route, route.Defined → pathOf target = route.path →
          result.2.allowGet = decide (route.accepts = ascii "GET") ∧
            result.2.allowPost = decide (route.accepts = ascii "POST"))) ∧
      ∀ target' : Bytes, target'.length < httpTargetCap → pathOf target' = pathOf target →
        pathOf target ≠ [] →
        gwHttpRoute answers recording method target' =
          gwHttpRoute answers recording method target := by
  refine ⟨gwHttpRoute_acts htarget, ?_, ?_⟩
  · intro result later hrun
    exact gwHttpRoute_statusCode htarget hrun
  · intro target' htarget' hpath hsome
    exact gwHttpRoute_query htarget htarget' hpath hsome

/-- A gateway without a sampler, recordings or a page. -/
def bareAnswers : RouteAnswers := ⟨fun _ => .cleared, none, ⟨none, fun _ => none⟩⟩

theorem gwHttpRoute_contract_stop :
    ∃ manager, startedManager = some manager ∧
      (gwHttpRoute bareAnswers gwConfigInit.mediamtx.recording (ascii "POST")
        (ascii "/v1/channels/front/stop?now")).ActsIn (managerSetting True fun _ => True)
        (RequestAct (ascii "POST") (ascii "/v1/channels/front/stop?now") manager) manager ∧
      ∀ result later, Section.Runs (managerSetting True fun _ => True)
          (gwHttpRoute bareAnswers gwConfigInit.mediamtx.recording (ascii "GET")
            (ascii "/v1/channels/front/stop?now")) manager result later →
        result.2.statusCode = 405 := by
  have hsome : startedManager.isSome = true := by decide +kernel
  obtain ⟨manager, hmanager⟩ := Option.isSome_iff_exists.mp hsome
  have hget := (@gwHttpRoute_contract True (fun _ => True) bareAnswers
    gwConfigInit.mediamtx.recording (ascii "GET") (ascii "/v1/channels/front/stop?now")
    (by decide +kernel) manager).2.1
  refine ⟨manager, hmanager, (gwHttpRoute_contract _ _ _ (by decide +kernel) manager).1, ?_⟩
  intro result later hrun
  refine (hget result later hrun).1.mpr
    ⟨.action (ascii "front") .stop, ⟨⟨by decide, by decide⟩, by decide⟩, by decide, by decide⟩

end Routing

end LearnApue.Gateway
