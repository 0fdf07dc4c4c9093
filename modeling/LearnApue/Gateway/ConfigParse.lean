import LearnApue.Foundation.CInt
import LearnApue.Gateway.Expand
import LearnApue.Gateway.Redact

set_option autoImplicit false

/-!
# Gateway: from a YAML document to a configuration (`config.c`)

`parse_document` walks over a libyaml document and stores what it finds into the
`gw_config` that `gw_config_init` filled.  A document is a tree of scalars,
sequences and mappings.  The readers write through a pointer to the field that a
key belongs to; here that pointer is a `Field`, the two halves of an access path.
A run keeps what it stored before it met an error.
-/

namespace LearnApue.Gateway

open LearnApue.Foundation

/-! ## Documents -/

/-- `yaml_node_t`.  A scalar may hold any bytes. -/
inductive YamlNode where
  | scalar (value : Bytes)
  | sequence (items : List YamlNode)
  | mapping (pairs : List (YamlNode × YamlNode))

/-- `type == YAML_MAPPING_NODE`. -/
def YamlNode.isMapping : YamlNode → Bool
  | .mapping _ => true
  | _ => false

/-- `scalar_text`: the value as a C string. -/
def scalarText : YamlNode → Option Bytes
  | .scalar value => some (cString value)
  | _ => none

/-- `mapping_value`: the value of the first pair with the key, in a mapping. -/
def mappingValue (mapping : YamlNode) (key : Bytes) : Option YamlNode :=
  match mapping with
  | .mapping pairs => (pairs.find? fun pair => scalarText pair.1 = some key).map Prod.snd
  | _ => none

/-! ## Readers -/

/-- A part of a program that works on some data and may fail. -/
abbrev Parse (σ α : Type) : Type := EStateM GwError σ α

/-- A pointer to a field of the data: how it is read and written. -/
structure Field (σ α : Type) where
  get : σ → α
  set : α → σ → σ

/-- `copy_text` into a field: the text that fits, or `GW_ERR_OVERFLOW`. -/
def copyToText (capacity : Nat) (source : Bytes) : Option (Text capacity) :=
  Text.ofBytes? capacity (cString source)

section

variable {σ : Type}

/-- `read_string`. -/
def readString {capacity : Nat} (mapping : YamlNode) (key : Bytes)
    (field : Field σ (Text capacity)) (required : Bool) : Parse σ Unit :=
  match mappingValue mapping key with
  | none =>
      if required then throw (gwErrorSet .errParse (ascii "missing required field " ++ key))
      else pure ()
  | some node =>
      match scalarText node with
      | none => throw (gwErrorSet .errParse (key ++ ascii " must be a scalar string"))
      | some value =>
          match copyToText capacity value with
          | none =>
              throw (gwErrorSet .errOverflow
                (key ++ ascii " exceeds " ++ decimalNat (capacity - 1) ++ ascii " bytes"))
          | some text => modify (field.set text)

/-- `read_int`. -/
def readInt (mapping : YamlNode) (key : Bytes) (field : Field σ Int) (required : Bool) :
    Parse σ Unit :=
  match mappingValue mapping key with
  | none =>
      if required then throw (gwErrorSet .errParse (ascii "missing required field " ++ key))
      else pure ()
  | some node =>
      match scalarText node with
      | none => throw (gwErrorSet .errParse (key ++ ascii " must be an integer"))
      | some value =>
          let parsed := strtoll value
          if parsed.erange ∨ parsed.converted = false ∨ parsed.rest ≠ [] ∨
              parsed.value < intMin ∨ parsed.value > intMax then
            throw (gwErrorSet .errParse (key ++ ascii " is not a valid integer"))
          else modify (field.set parsed.value)

/-- The texts that `read_bool` takes for true. -/
def trueTexts : List Bytes := [ascii "true", ascii "True", ascii "TRUE"]

/-- The texts that `read_bool` takes for false. -/
def falseTexts : List Bytes := [ascii "false", ascii "False", ascii "FALSE"]

/-- `read_bool`. -/
def readBool (mapping : YamlNode) (key : Bytes) (field : Field σ Bool) : Parse σ Unit :=
  match mappingValue mapping key with
  | none => pure ()
  | some node =>
      match scalarText node with
      | none => throw (gwErrorSet .errParse (key ++ ascii " must be true or false"))
      | some value =>
          if value ∈ trueTexts then modify (field.set true)
          else if value ∈ falseTexts then modify (field.set false)
          else throw (gwErrorSet .errParse (key ++ ascii " must be true or false"))

/-- A port is read into a local `int`, checked, and stored. -/
def readPort (mapping : YamlNode) (key : Bytes) (field : Field σ Nat) (least : Int)
    (message : Bytes) : Parse σ Unit := do
  let config ← get
  match readInt mapping key ⟨id, fun value _ => value⟩ false (field.get config : Int) with
  | .error error _ => throw error
  | .ok _ port =>
      if port < least ∨ port > 65535 then throw (gwErrorSet .errValidation message)
      else modify (field.set port.toNat)

end

/-! ## Sections -/

/-- `parse_document`, where `server` is present. -/
def parseServer (server : YamlNode) : Parse GwConfig Unit := do
  readBool server (ascii "enabled")
    ⟨fun config => config.server.enabled,
      fun value config => { config with server.enabled := value }⟩
  readString server (ascii "listen")
    ⟨fun config => config.server.listen,
      fun value config => { config with server.listen := value }⟩ false
  readPort server (ascii "port")
    ⟨fun config => config.server.port,
      fun value config => { config with server.port := value }⟩ 0
    (ascii "server.port must be 0..65535")

/-- `parse_document`, where `mediamtx.recording` is a mapping. -/
def parseRecording (recording : YamlNode) : Parse GwConfig Unit := do
  readBool recording (ascii "enabled")
    ⟨fun config => config.mediamtx.recording.enabled,
      fun value config => { config with mediamtx.recording.enabled := value }⟩
  readString recording (ascii "directory")
    ⟨fun config => config.mediamtx.recording.directory,
      fun value config => { config with mediamtx.recording.directory := value }⟩ false
  readString recording (ascii "format")
    ⟨fun config => config.mediamtx.recording.format,
      fun value config => { config with mediamtx.recording.format := value }⟩ false
  readInt recording (ascii "part_duration_sec")
    ⟨fun config => config.mediamtx.recording.partDurationSec,
      fun value config => { config with mediamtx.recording.partDurationSec := value }⟩ false
  readInt recording (ascii "max_part_size_mb")
    ⟨fun config => config.mediamtx.recording.maxPartSizeMb,
      fun value config => { config with mediamtx.recording.maxPartSizeMb := value }⟩ false
  readInt recording (ascii "segment_duration_sec")
    ⟨fun config => config.mediamtx.recording.segmentDurationSec,
      fun value config => { config with mediamtx.recording.segmentDurationSec := value }⟩ false
  readInt recording (ascii "delete_after_sec")
    ⟨fun config => config.mediamtx.recording.deleteAfterSec,
      fun value config => { config with mediamtx.recording.deleteAfterSec := value }⟩ false
  readInt recording (ascii "min_free_mb")
    ⟨fun config => config.mediamtx.recording.minFreeMb,
      fun value config => { config with mediamtx.recording.minFreeMb := value }⟩ false
  readString recording (ascii "playback_listen")
    ⟨fun config => config.mediamtx.recording.playbackListen,
      fun value config => { config with mediamtx.recording.playbackListen := value }⟩ false
  readPort recording (ascii "playback_port")
    ⟨fun config => config.mediamtx.recording.playbackPort,
      fun value config => { config with mediamtx.recording.playbackPort := value }⟩ 1
    (ascii "mediamtx.recording.playback_port must be 1..65535")

/-- `parse_document`, where `mediamtx` is present. -/
def parseMediamtx (mediamtx : YamlNode) : Parse GwConfig Unit := do
  readString mediamtx (ascii "publish_base_url")
    ⟨fun config => config.mediamtx.publishBaseUrl,
      fun value config => { config with mediamtx.publishBaseUrl := value }⟩ false
  match mappingValue mediamtx (ascii "recording") with
  | none => pure ()
  | some recording =>
      if recording.isMapping then parseRecording recording
      else throw (gwErrorSet .errParse (ascii "mediamtx.recording must be a mapping"))

/-- `parse_document`, where `defaults` is present. -/
def parseDefaults (defaults : YamlNode) : Parse GwConfig Unit := do
  readInt defaults (ascii "startup_timeout_sec")
    ⟨fun config => config.defaults.startupTimeoutSec,
      fun value config => { config with defaults.startupTimeoutSec := value }⟩ false
  readInt defaults (ascii "progress_timeout_sec")
    ⟨fun config => config.defaults.progressTimeoutSec,
      fun value config => { config with defaults.progressTimeoutSec := value }⟩ false
  readInt defaults (ascii "stable_run_sec")
    ⟨fun config => config.defaults.stableRunSec,
      fun value config => { config with defaults.stableRunSec := value }⟩ false
  readInt defaults (ascii "stop_timeout_sec")
    ⟨fun config => config.defaults.stopTimeoutSec,
      fun value config => { config with defaults.stopTimeoutSec := value }⟩ false
  readInt defaults (ascii "max_retries")
    ⟨fun config => config.defaults.maxRetries,
      fun value config => { config with defaults.maxRetries := value }⟩ false
  readInt defaults (ascii "max_backoff_sec")
    ⟨fun config => config.defaults.maxBackoffSec,
      fun value config => { config with defaults.maxBackoffSec := value }⟩ false

/-! ## Channels -/

/-- The end of `parse_channel`: the references in the stored URL are expanded into
a buffer of their own, which is copied back. -/
def expandStoredUrl (environment : Environment) : Parse GwChannelConfig Unit := do
  let channel ← get
  match expandInputUrl environment channel.input.url.bytes with
  | (_, .error error) => throw error
  | (expanded, .ok ()) =>
      match copyToText gwUrlCap expanded with
      | none => throw (gwErrorSet .errOverflow (ascii "cannot store expanded input URL"))
      | some url => set { channel with input.url := url }

/-- The members of a channel that are read from its three mappings. -/
def parseChannelMembers (input video output : YamlNode) : Parse GwChannelConfig Unit := do
  readString input (ascii "type")
    ⟨fun channel => channel.input.type,
      fun value channel => { channel with input.type := value }⟩ false
  readString input (ascii "url")
    ⟨fun channel => channel.input.url,
      fun value channel => { channel with input.url := value }⟩ true
  readString input (ascii "transport")
    ⟨fun channel => channel.input.transport,
      fun value channel => { channel with input.transport := value }⟩ false
  readString video (ascii "decoder")
    ⟨fun channel => channel.video.decoder,
      fun value channel => { channel with video.decoder := value }⟩ false
  readString video (ascii "encoder")
    ⟨fun channel => channel.video.encoder,
      fun value channel => { channel with video.encoder := value }⟩ false
  readString output (ascii "path")
    ⟨fun channel => channel.output.path,
      fun value channel => { channel with output.path := value }⟩ true
  readInt video (ascii "width")
    ⟨fun channel => channel.video.width,
      fun value channel => { channel with video.width := value }⟩ false
  readInt video (ascii "height")
    ⟨fun channel => channel.video.height,
      fun value channel => { channel with video.height := value }⟩ false
  readInt video (ascii "bitrate_kbps")
    ⟨fun channel => channel.video.bitrateKbps,
      fun value channel => { channel with video.bitrateKbps := value }⟩ false
  readInt video (ascii "fps")
    ⟨fun channel => channel.video.fps,
      fun value channel => { channel with video.fps := value }⟩ false

/-- `parse_channel`. -/
def parseChannel (environment : Environment) (node : YamlNode) (index : Nat) :
    Parse GwChannelConfig Unit := do
  if node.isMapping then
    set channelInit
    readString node (ascii "id")
      ⟨fun channel => channel.id, fun value channel => { channel with id := value }⟩ true
    readBool node (ascii "enabled")
      ⟨fun channel => channel.enabled, fun value channel => { channel with enabled := value }⟩
    match mappingValue node (ascii "input"), mappingValue node (ascii "video"),
        mappingValue node (ascii "output") with
    | some input, some video, some output =>
        if input.isMapping ∧ video.isMapping ∧ output.isMapping then
          parseChannelMembers input video output
          expandStoredUrl environment
        else
          throw (gwErrorSet .errParse (ascii "channels[" ++ decimalNat index ++
            ascii "] requires input, video, and output mappings"))
    | _, _, _ =>
        throw (gwErrorSet .errParse (ascii "channels[" ++ decimalNat index ++
          ascii "] requires input, video, and output mappings"))
  else
    throw (gwErrorSet .errParse
      (ascii "channels[" ++ decimalNat index ++ ascii "] must be a mapping"))

/-- The loop of `parse_document` over the items of `channels`. -/
def parseChannels (environment : Environment) : List YamlNode → Parse GwConfig Unit
  | [] => pure ()
  | item :: rest => do
      let config ← get
      if config.channels.length ≥ gwMaxChannels then
        throw (gwErrorSet .errValidation
          (ascii "channels exceeds limit of " ++ decimalNat gwMaxChannels))
      else
        match parseChannel environment item config.channels.length channelInit with
        | .error error _ => throw error
        | .ok _ channel =>
            set { config with channels := config.channels ++ [channel] }
            parseChannels environment rest

/-- A section that may be absent. -/
def whenPresent (node : Option YamlNode) (parse : YamlNode → Parse GwConfig Unit) : Parse GwConfig Unit :=
  match node with
  | none => pure ()
  | some node => parse node

/-- `parse_document`. -/
def parseDocument (environment : Environment) (root : Option YamlNode) : Parse GwConfig Unit :=
  match root with
  | none => throw (gwErrorSet .errParse (ascii "configuration root must be a mapping"))
  | some root => do
      if root.isMapping then
        whenPresent (mappingValue root (ascii "server")) parseServer
        whenPresent (mappingValue root (ascii "mediamtx")) parseMediamtx
        whenPresent (mappingValue root (ascii "defaults")) parseDefaults
        match mappingValue root (ascii "channels") with
        | some (.sequence items) => parseChannels environment items
        | _ => throw (gwErrorSet .errParse (ascii "channels must be a sequence"))
      else throw (gwErrorSet .errParse (ascii "configuration root must be a mapping"))

end LearnApue.Gateway
