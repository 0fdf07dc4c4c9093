import LearnApue.Gateway.Error

set_option autoImplicit false

/-!
# Gateway: the configuration model and its policy (`config.h`, `config.c`)

The records of `config.h` with their string fields as bounded texts, the
defaults of `gw_config_init`, and `gw_config_validate`, check by check in the
source's order and with the source's messages.  `inet_pton` is transcribed as an
acceptor: the validator discards the address it parses.
-/

namespace LearnApue.Gateway

open LearnApue.Foundation

/-! ## Capacities -/

/-- `GW_MAX_CHANNELS`. -/
def gwMaxChannels : Nat := 64
/-- `GW_ID_CAP`. -/
def gwIdCap : Nat := 65
/-- `GW_URL_CAP`. -/
def gwUrlCap : Nat := 2048
/-- `GW_PATH_CAP`. -/
def gwPathCap : Nat := 129
/-- `GW_FILE_PATH_CAP`. -/
def gwFilePathCap : Nat := 512
/-- `GW_NAME_CAP`. -/
def gwNameCap : Nat := 33
/-- `sizeof(gw_server_config.listen)`, also of `playback_listen`. -/
def listenCap : Nat := 64

theorem gwUrlCap_pos : 0 < gwUrlCap := by decide

/-! ## Records -/

/-- `gw_server_config`. -/
structure GwServerConfig where
  enabled : Bool
  listen : Text listenCap
  port : Nat
  deriving DecidableEq

/-- `gw_recording_config`. -/
structure GwRecordingConfig where
  enabled : Bool
  directory : Text gwFilePathCap
  format : Text gwNameCap
  partDurationSec : Int
  maxPartSizeMb : Int
  segmentDurationSec : Int
  deleteAfterSec : Int
  minFreeMb : Int
  playbackListen : Text listenCap
  playbackPort : Nat
  deriving DecidableEq

/-- `gw_mediamtx_config`. -/
structure GwMediamtxConfig where
  publishBaseUrl : Text gwUrlCap
  recording : GwRecordingConfig
  deriving DecidableEq

/-- `gw_retry_policy`. -/
structure GwRetryPolicy where
  startupTimeoutSec : Int
  progressTimeoutSec : Int
  stableRunSec : Int
  stopTimeoutSec : Int
  maxRetries : Int
  maxBackoffSec : Int
  deriving DecidableEq

/-- `gw_input_config`. -/
structure GwInputConfig where
  type : Text gwNameCap
  url : Text gwUrlCap
  transport : Text gwNameCap
  deriving DecidableEq

/-- `gw_video_config`. -/
structure GwVideoConfig where
  decoder : Text gwNameCap
  width : Int
  height : Int
  encoder : Text gwNameCap
  bitrateKbps : Int
  fps : Int
  deriving DecidableEq

/-- `gw_output_config`. -/
structure GwOutputConfig where
  path : Text gwPathCap
  deriving DecidableEq

/-- `gw_channel_config`. -/
structure GwChannelConfig where
  id : Text gwIdCap
  enabled : Bool
  input : GwInputConfig
  video : GwVideoConfig
  output : GwOutputConfig
  deriving DecidableEq

/-- `gw_config`.  The used part of `channels[GW_MAX_CHANNELS]` is a list; its
length is `channel_count`. -/
structure GwConfig where
  server : GwServerConfig
  mediamtx : GwMediamtxConfig
  defaults : GwRetryPolicy
  channels : List GwChannelConfig
  deriving DecidableEq

/-! ## Defaults -/

/-- `gw_config_init`. -/
def gwConfigInit : GwConfig where
  server :=
    { enabled := true
      listen := ⟨ascii "127.0.0.1", by decide, by decide⟩
      port := 9080 }
  mediamtx :=
    { publishBaseUrl := ⟨ascii "rtsp://127.0.0.1:8554", by decide, by decide⟩
      recording :=
        { enabled := false
          directory := ⟨ascii "/var/lib/rk-media-gateway/recordings", by decide, by decide⟩
          format := ⟨ascii "fmp4", by decide, by decide⟩
          partDurationSec := 1
          maxPartSizeMb := 50
          segmentDurationSec := 3600
          deleteAfterSec := 86400
          minFreeMb := 1024
          playbackListen := ⟨ascii "127.0.0.1", by decide, by decide⟩
          playbackPort := 9996 } }
  defaults :=
    { startupTimeoutSec := 15
      progressTimeoutSec := 10
      stableRunSec := 60
      stopTimeoutSec := 5
      maxRetries := 10
      maxBackoffSec := 30 }
  channels := []

/-- `channel_init`. -/
def channelInit : GwChannelConfig where
  id := ⟨[], by decide, by decide⟩
  enabled := true
  input :=
    { type := ⟨ascii "rtsp", by decide, by decide⟩
      url := ⟨[], by decide, by decide⟩
      transport := ⟨ascii "tcp", by decide, by decide⟩ }
  video :=
    { decoder := ⟨ascii "h264_rkmpp", by decide, by decide⟩
      width := 1280
      height := 720
      encoder := ⟨ascii "h264_rkmpp", by decide, by decide⟩
      bitrateKbps := 4000
      fps := 25 }
  output := { path := ⟨[], by decide, by decide⟩ }

/-! ## Numeric addresses -/

/-- State of `inet_pton(AF_INET, …)` between two bytes: the octet being read,
the octets begun so far, and whether the current one has a digit. -/
structure Ipv4Scan where
  octet : Nat
  octets : Nat
  sawDigit : Bool
  deriving DecidableEq

/-- One byte of a dotted quad; `none` rejects the address. -/
def Ipv4Scan.next (scan : Ipv4Scan) (ch : Byte) : Option Ipv4Scan :=
  if isDigit ch then
    let value := scan.octet * 10 + (ch.toNat - 48)
    if scan.sawDigit ∧ scan.octet = 0 then none
    else if 255 < value then none
    else if scan.sawDigit then some { scan with octet := value }
    else if 4 < scan.octets + 1 then none
    else some ⟨value, scan.octets + 1, true⟩
  else if ch = byte '.' ∧ scan.sawDigit then
    if scan.octets = 4 then none else some ⟨0, scan.octets, false⟩
  else none

/-- `inet_pton(AF_INET, text, …) == 1`. -/
def inetPton4 (text : Bytes) : Bool :=
  match text.foldlM Ipv4Scan.next ⟨0, 0, false⟩ with
  | none => false
  | some scan => 4 ≤ scan.octets

/-- State of `inet_pton(AF_INET6, …)`: the address bytes filled (`tp`), whether
`::` was seen (`colonp`), and the digits of the current group. -/
structure Ipv6Scan where
  filled : Nat
  colonp : Bool
  xdigitsSeen : Nat
  value : Nat
  deriving DecidableEq

/-- The checks after the last byte. -/
def Ipv6Scan.finish (scan : Ipv6Scan) : Bool :=
  if 0 < scan.xdigitsSeen ∧ 16 < scan.filled + 2 then false
  else
    let filled := if 0 < scan.xdigitsSeen then scan.filled + 2 else scan.filled
    if scan.colonp then filled ≠ 16 else filled = 16

/-- The byte loop.  `curtok` is the text from the start of the current group,
which an embedded dotted quad is read from. -/
def inetPton6Loop (curtok : Bytes) (scan : Ipv6Scan) : Bytes → Bool
  | [] => scan.finish
  | ch :: rest =>
      match hexDigitValue ch with
      | some digit =>
          if scan.xdigitsSeen = 4 then false
          else if 0xffff < scan.value * 16 + digit then false
          else inetPton6Loop curtok
            { scan with value := scan.value * 16 + digit
                        xdigitsSeen := scan.xdigitsSeen + 1 } rest
      | none =>
          if ch = byte ':' then
            if scan.xdigitsSeen = 0 then
              if scan.colonp then false
              else inetPton6Loop rest { scan with colonp := true } rest
            else if rest = [] then false
            else if 16 < scan.filled + 2 then false
            else inetPton6Loop rest ⟨scan.filled + 2, scan.colonp, 0, 0⟩ rest
          else if ch = byte '.' ∧ scan.filled + 4 ≤ 16 ∧ inetPton4 curtok then
            { scan with filled := scan.filled + 4, xdigitsSeen := 0 }.finish
          else false

/-- `inet_pton(AF_INET6, text, …) == 1`. -/
def inetPton6 (text : Bytes) : Bool :=
  match text with
  | [] => false
  | ch :: rest =>
      if ch = byte ':' then
        if rest.head? = some (byte ':') then inetPton6Loop rest ⟨0, false, 0, 0⟩ rest
        else false
      else inetPton6Loop text ⟨0, false, 0, 0⟩ text

/-! ## Field checks -/

/-- `valid_identifier`. -/
def validIdentifier (value : Bytes) : Bool :=
  value ≠ [] && value.all fun b => isAlnum b || b == byte '_' || b == byte '-'

/-- `supported_codec`. -/
def supportedCodec (codec : Bytes) : Bool :=
  codec = ascii "h264_rkmpp" || codec = ascii "hevc_rkmpp"

/-- `valid_absolute_directory`. -/
def validAbsoluteDirectory (value : Bytes) : Bool :=
  value.head? = some (byte '/') && value.all fun b =>
    isAlnum b || b == byte '/' || b == byte '_' || b == byte '-' || b == byte '.'

/-- The numeric-address check of `server.listen` and `playback_listen`. -/
def numericAddress (value : Bytes) : Bool := inetPton4 value || inetPton6 value

/-! ## Validation -/

/-- One check of `gw_config_validate`: go on, or fail with the message. -/
def require (condition : Bool) (message : Bytes) : Except GwError Unit :=
  if condition then .ok () else .error (gwErrorSet .errValidation message)

@[simp] theorem require_eq_ok {condition : Bool} {message : Bytes} :
    require condition message = .ok () ↔ condition = true := by
  unfold require
  split <;> simp_all

/-- A sequence of checks passes when each of them does. -/
@[simp] theorem seq_eq_ok {first second : Except GwError Unit} :
    (do first; second) = .ok () ↔ first = .ok () ∧ second = .ok () := by
  cases first with
  | ok value => simp [bind, Except.bind]
  | error error => simp [bind, Except.bind]

/-- The inner loop over `previous`: no earlier channel has the id or the path. -/
def checkDistinct (channel : GwChannelConfig) : List GwChannelConfig → Except GwError Unit
  | [] => .ok ()
  | previous :: rest => do
      require (previous.id ≠ channel.id)
        (ascii "duplicate channel id '" ++ channel.id.bytes ++ ascii "'")
      require (previous.output.path ≠ channel.output.path)
        (ascii "duplicate MediaMTX output path '" ++ channel.output.path.bytes ++ ascii "'")
      checkDistinct channel rest

/-- A message that names the channel it rejects. -/
def channelMessage (channel : GwChannelConfig) (tail : String) : Bytes :=
  ascii "channel '" ++ channel.id.bytes ++ ascii "' " ++ ascii tail

/-- The dimension, bitrate and frame-rate bounds of one channel. -/
def videoInRange (video : GwVideoConfig) : Bool :=
  64 ≤ video.width && video.width ≤ 7680 && 64 ≤ video.height && video.height ≤ 4320 &&
    64 ≤ video.bitrateKbps && video.bitrateKbps ≤ 100000 && 1 ≤ video.fps && video.fps ≤ 240

/-- The body of the loop over `config->channels`; `previous` are the channels
before this one. -/
def validateChannel (previous : List GwChannelConfig) (channel : GwChannelConfig) :
    Except GwError Unit := do
  require (validIdentifier channel.id.bytes)
    (ascii "channels[" ++ decimalNat previous.length ++
      ascii "].id may contain only letters, digits, '_' and '-'")
  checkDistinct channel previous
  require (channel.input.type.bytes = ascii "rtsp" &&
      startsWith channel.input.url.bytes (ascii "rtsp://"))
    (channelMessage channel "phase-1 input must be an rtsp:// URL")
  require (channel.input.transport.bytes = ascii "tcp" ||
      channel.input.transport.bytes = ascii "udp")
    (channelMessage channel "transport must be tcp or udp")
  require (supportedCodec channel.video.decoder.bytes &&
      supportedCodec channel.video.encoder.bytes)
    (channelMessage channel "requires h264_rkmpp or hevc_rkmpp codecs")
  require (videoInRange channel.video)
    (channelMessage channel "video dimensions, bitrate, or fps are out of range")
  require (validIdentifier channel.output.path.bytes)
    (channelMessage channel "output.path must be a safe path segment")

/-- The loop over `config->channels`. -/
def validateChannels (previous : List GwChannelConfig) :
    List GwChannelConfig → Except GwError Unit
  | [] => .ok ()
  | channel :: rest => do
      validateChannel previous channel
      validateChannels (previous ++ [channel]) rest

/-- The limits on the recording section. -/
def recordingLimits (recording : GwRecordingConfig) : Bool :=
  1 ≤ recording.partDurationSec && recording.partDurationSec ≤ 60 &&
    1 ≤ recording.maxPartSizeMb && recording.maxPartSizeMb ≤ 4096 &&
    1 ≤ recording.segmentDurationSec && recording.segmentDurationSec ≤ 86400 &&
    0 ≤ recording.deleteAfterSec && 0 ≤ recording.minFreeMb

/-- The check on `config->defaults`. -/
def retryPolicyPositive (policy : GwRetryPolicy) : Bool :=
  0 < policy.startupTimeoutSec && 0 < policy.progressTimeoutSec &&
    0 < policy.stableRunSec && 0 < policy.stopTimeoutSec &&
    0 ≤ policy.maxRetries && 0 < policy.maxBackoffSec

/-- `gw_config_validate`. -/
def gwConfigValidate (config : GwConfig) : Except GwError Unit := do
  require (numericAddress config.server.listen.bytes)
    (ascii "server.listen must be a numeric IPv4 or IPv6 address")
  require (startsWith config.mediamtx.publishBaseUrl.bytes (ascii "rtsp://"))
    (ascii "mediamtx.publish_base_url must use rtsp://")
  require (validAbsoluteDirectory config.mediamtx.recording.directory.bytes)
    (ascii "mediamtx.recording.directory must be a safe absolute path")
  require (config.mediamtx.recording.format.bytes = ascii "fmp4" ||
      config.mediamtx.recording.format.bytes = ascii "mpegts")
    (ascii "mediamtx.recording.format must be fmp4 or mpegts")
  require (recordingLimits config.mediamtx.recording)
    (ascii "MediaMTX recording limits are out of range")
  require (numericAddress config.mediamtx.recording.playbackListen.bytes)
    (ascii "mediamtx.recording.playback_listen must be a numeric address")
  require (retryPolicyPositive config.defaults)
    (ascii "timeouts/backoff must be positive and max_retries non-negative")
  validateChannels [] config.channels

/-! ## What an accepted configuration satisfies -/

/-- The policy an accepted channel meets, apart from the other channels. -/
structure ChannelAccepted (channel : GwChannelConfig) : Prop where
  idValid : validIdentifier channel.id.bytes = true
  inputType : channel.input.type.bytes = ascii "rtsp"
  inputUrl : ascii "rtsp://" <+: channel.input.url.bytes
  transport : channel.input.transport.bytes = ascii "tcp" ∨
    channel.input.transport.bytes = ascii "udp"
  codecs : supportedCodec channel.video.decoder.bytes = true ∧
    supportedCodec channel.video.encoder.bytes = true
  video : videoInRange channel.video = true
  pathValid : validIdentifier channel.output.path.bytes = true

theorem checkDistinct_eq_ok {channel : GwChannelConfig} {previous : List GwChannelConfig} :
    checkDistinct channel previous = .ok () ↔
      ∀ earlier ∈ previous, earlier.id ≠ channel.id ∧ earlier.output.path ≠ channel.output.path := by
  induction previous with
  | nil => simp [checkDistinct]
  | cons earlier rest ih => simp [checkDistinct, ih, and_assoc]

theorem validateChannel_eq_ok {previous : List GwChannelConfig} {channel : GwChannelConfig} :
    validateChannel previous channel = .ok () ↔
      ChannelAccepted channel ∧
        ∀ earlier ∈ previous,
          earlier.id ≠ channel.id ∧ earlier.output.path ≠ channel.output.path := by
  simp only [validateChannel, seq_eq_ok, require_eq_ok, checkDistinct_eq_ok, Bool.and_eq_true,
    Bool.or_eq_true, decide_eq_true_eq, startsWith_iff]
  constructor
  · rintro ⟨hid, hdistinct, ⟨htype, hurl⟩, htransport, hcodecs, hvideo, hpath⟩
    exact ⟨⟨hid, htype, hurl, htransport, hcodecs, hvideo, hpath⟩, hdistinct⟩
  · rintro ⟨⟨hid, htype, hurl, htransport, hcodecs, hvideo, hpath⟩, hdistinct⟩
    exact ⟨hid, hdistinct, ⟨htype, hurl⟩, htransport, hcodecs, hvideo, hpath⟩

theorem validateChannels_eq_ok {previous channels : List GwChannelConfig} :
    validateChannels previous channels = .ok () ↔
      (∀ channel ∈ channels, ChannelAccepted channel) ∧
        (∀ channel ∈ channels, ∀ earlier ∈ previous,
          earlier.id ≠ channel.id ∧ earlier.output.path ≠ channel.output.path) ∧
        channels.Pairwise fun earlier channel =>
          earlier.id ≠ channel.id ∧ earlier.output.path ≠ channel.output.path := by
  induction channels generalizing previous with
  | nil => simp [validateChannels]
  | cons channel rest ih =>
    simp only [validateChannels, seq_eq_ok, validateChannel_eq_ok, ih, List.mem_cons,
      List.pairwise_cons, List.mem_append]
    constructor
    · rintro ⟨⟨haccepted, hearlier⟩, hrest, hdistinct, hpairs⟩
      refine ⟨?_, ?_, fun later hlater => hdistinct later hlater channel (Or.inr (Or.inl rfl)),
        hpairs⟩
      · rintro other (rfl | hother)
        · exact haccepted
        · exact hrest other hother
      · rintro other (rfl | hother) earlier hmem
        · exact hearlier earlier hmem
        · exact hdistinct other hother earlier (Or.inl hmem)
    · rintro ⟨haccepted, hdistinct, hhead, hpairs⟩
      refine ⟨⟨haccepted channel (Or.inl rfl), hdistinct channel (Or.inl rfl)⟩,
        fun other hother => haccepted other (Or.inr hother), ?_, hpairs⟩
      rintro other hother earlier (hmem | rfl | hmem)
      · exact hdistinct other (Or.inr hother) earlier hmem
      · exact hhead other hother
      · simp at hmem

/-- Everything the later modules use of an accepted configuration. -/
theorem gwConfigValidate_accepted {config : GwConfig} (h : gwConfigValidate config = .ok ()) :
    retryPolicyPositive config.defaults = true ∧
      startsWith config.mediamtx.publishBaseUrl.bytes (ascii "rtsp://") = true ∧
      (∀ channel ∈ config.channels, ChannelAccepted channel) ∧
      config.channels.Pairwise fun earlier channel => earlier.id ≠ channel.id := by
  simp only [gwConfigValidate, seq_eq_ok, require_eq_ok, validateChannels_eq_ok] at h
  obtain ⟨-, hbase, -, -, -, -, hpolicy, haccepted, -, hpairs⟩ := h
  exact ⟨hpolicy, hbase, haccepted, hpairs.imp fun hne => hne.1⟩

/-- What the validation checks of the recording section. -/
structure RecordingAccepted (recording : GwRecordingConfig) : Prop where
  directory : validAbsoluteDirectory recording.directory.bytes = true
  format : recording.format.bytes = ascii "fmp4" ∨ recording.format.bytes = ascii "mpegts"
  limits : recordingLimits recording = true
  playbackListen : numericAddress recording.playbackListen.bytes = true

theorem gwConfigValidate_recording {config : GwConfig} (h : gwConfigValidate config = .ok ()) :
    RecordingAccepted config.mediamtx.recording := by
  simp only [gwConfigValidate, seq_eq_ok, require_eq_ok, Bool.or_eq_true, decide_eq_true_eq] at h
  obtain ⟨-, -, hdirectory, hformat, hlimits, hlisten, -⟩ := h
  exact ⟨hdirectory, hformat, hlimits, hlisten⟩

/-- The integers of the recording section fit their C types, `int` and `uint16_t`. -/
structure GwRecordingConfig.Representable (recording : GwRecordingConfig) : Prop where
  integers : ∀ i ∈ [recording.partDurationSec, recording.maxPartSizeMb,
    recording.segmentDurationSec, recording.deleteAfterSec, recording.minFreeMb],
    -intMax - 1 ≤ i ∧ i ≤ intMax
  playbackPort : recording.playbackPort < 2 ^ 16

/-- Every default passes its own check. -/
theorem gwConfigInit_accepted : gwConfigValidate gwConfigInit = .ok () := by
  decide

/-- A channel with this id that is accepted. -/
def watchedChannel (id : Bytes) : GwChannelConfig :=
  { channelInit with
      id := .truncate gwIdCap (by decide) id
      input :=
        { channelInit.input with
            url := .truncate gwUrlCap gwUrlCap_pos (ascii "rtsp://camera/live") }
      output := ⟨.truncate gwPathCap (by decide) id⟩ }

/-- The defaults with these channels. -/
def configOf (channels : List GwChannelConfig) : GwConfig :=
  { gwConfigInit with channels := channels }

/-- With the defaults, only the channels are left to be checked. -/
theorem configOf_valid {channels : List GwChannelConfig}
    (hchannels : validateChannels [] channels = .ok ()) :
    gwConfigValidate (configOf channels) = .ok () := by
  have hinit := gwConfigInit_accepted
  simp only [gwConfigValidate, seq_eq_ok] at hinit ⊢
  obtain ⟨hlisten, hbase, hdirectory, hformat, hlimits, hplayback, hdefaults, -⟩ := hinit
  exact ⟨hlisten, hbase, hdirectory, hformat, hlimits, hplayback, hdefaults, hchannels⟩

theorem watchedFront_valid :
    gwConfigValidate (configOf [watchedChannel (ascii "front")]) = .ok () :=
  configOf_valid (by decide +kernel)

end LearnApue.Gateway
