import LearnApue.Gateway.ConfigParse

set_option autoImplicit false

/-!
# Gateway: what the sections of a document determine

Every reader of `parse_document` stores the value of its key, or leaves the field
as it is when the key is absent.  From one lemma for each reader follows what the
whole of a document that is accepted says about the configuration.  A section
that is no mapping has no keys for the readers: `mediamtx.recording` is checked for
that, the other three are not.
-/

namespace LearnApue.Gateway

open LearnApue.Foundation

/-! ## What a key says about its field -/

/-- The value of a key in a section that may be absent. -/
def inside (node : Option YamlNode) (key : Bytes) : Option YamlNode :=
  node.bind fun mapping => mappingValue mapping key

/-- The text of an integer: nothing but a numeral in the range of `int`. -/
def IntText (text : Bytes) (value : Int) : Prop :=
  strtoll (cString text) = ⟨value, [], true, false⟩ ∧ intMin ≤ value ∧ value ≤ intMax

/-- The text of a truth value. -/
def BoolText (text : Bytes) (value : Bool) : Prop :=
  (value = true ∧ cString text ∈ trueTexts) ∨ (value = false ∧ cString text ∈ falseTexts)

/-- A value is absent and the field stays, or it is a scalar that says what the
field is. -/
def Determines {α : Type} (means : Bytes → α → Prop) (node : Option YamlNode) (initial field : α) :
    Prop :=
  match node with
  | none => field = initial
  | some value => ∃ text, value = .scalar text ∧ means text field

/-- What a string says: itself. -/
def StringText {capacity : Nat} (text : Bytes) (value : Text capacity) : Prop :=
  value.bytes = cString text

/-- What a port says: an integer from `least` to 65535. -/
def PortText (least : Int) (text : Bytes) (value : Nat) : Prop :=
  IntText text value ∧ least ≤ value ∧ value ≤ 65535

/-! ## The readers -/

section

variable {σ α β : Type}

theorem bind_ok {first : Parse σ α} {rest : α → Parse σ β} {before after : σ} {b : β}
    (h : (first >>= rest) before = .ok b after) :
    ∃ a middle, first before = .ok a middle ∧ rest a middle = .ok b after := by
  simp only [bind, EStateM.bind] at h
  split at h
  · rename_i a middle hfirst
    exact ⟨a, middle, hfirst, h⟩
  · cases h

/-- A field that is not written keeps its value. -/
def Field.Lawful (field : Field σ α) : Prop := ∀ data, field.set (field.get data) data = data

theorem scalarText_eq_some {node : YamlNode} {value : Bytes} (h : scalarText node = some value) :
    ∃ text, node = .scalar text ∧ value = cString text := by
  cases node with
  | scalar text => exact ⟨text, rfl, (Option.some.inj h).symm⟩
  | sequence items => cases h
  | mapping pairs => cases h

/-- What the readers share: a key that is absent, or the text of a scalar. -/
def readScalar (mapping : YamlNode) (key : Bytes) (absent : Parse σ Unit) (notScalar : GwError)
    (stored : Bytes → Parse σ Unit) : Parse σ Unit :=
  match mappingValue mapping key with
  | none => absent
  | some node =>
      match scalarText node with
      | none => throw notScalar
      | some value => stored value

theorem readScalar_ok {mapping : YamlNode} {key : Bytes} {field : Field σ α}
    {means : Bytes → α → Prop} {absent : Parse σ Unit} {notScalar : GwError}
    {stored : Bytes → Parse σ Unit} {before after : σ} (hfield : field.Lawful)
    (habsent : absent before = .ok () after → after = before)
    (hstored : ∀ text, stored (cString text) before = .ok () after →
      ∃ value, after = field.set value before ∧ means text value)
    (h : readScalar mapping key absent notScalar stored before = .ok () after) :
    ∃ value, after = field.set value before ∧
      Determines means (mappingValue mapping key) (field.get before) value := by
  unfold readScalar at h
  cases hnode : mappingValue mapping key with
  | none =>
    rw [hnode] at h
    exact ⟨field.get before, by rw [habsent h, hfield before], rfl⟩
  | some node =>
    rw [hnode] at h
    simp only at h
    cases hscalar : scalarText node with
    | none =>
      rw [hscalar] at h
      cases h
    | some value =>
      rw [hscalar] at h
      obtain ⟨text, rfl, rfl⟩ := scalarText_eq_some hscalar
      obtain ⟨value, hafter, hmeans⟩ := hstored text h
      exact ⟨value, hafter, text, rfl, hmeans⟩

/-- A field that is absent and not required stays. -/
theorem absent_ok {required : Bool} {error : GwError} {before after : σ}
    (h : (if required then throw error else pure () : Parse σ Unit) before = .ok () after) :
    after = before := by
  cases required with
  | true => cases h
  | false =>
    cases h
    rfl

theorem readString_ok {capacity : Nat} {mapping : YamlNode} {key : Bytes}
    {field : Field σ (Text capacity)} (hfield : field.Lawful) {required : Bool} {before after : σ}
    (h : readString mapping key field required before = .ok () after) :
    ∃ value, after = field.set value before ∧
      Determines StringText (mappingValue mapping key) (field.get before) value := by
  refine readScalar_ok hfield absent_ok (fun text hread => ?_) h
  cases hcopy : copyToText capacity (cString text) with
  | none =>
    rw [hcopy] at hread
    cases hread
  | some stored =>
    rw [hcopy] at hread
    cases hread
    have hbytes := Text.ofBytes?_eq_some hcopy
    rw [cString_of_nul_notMem (nul_notMem_cString text)] at hbytes
    exact ⟨stored, rfl, hbytes⟩

theorem readInt_ok {mapping : YamlNode} {key : Bytes} {field : Field σ Int}
    (hfield : field.Lawful) {required : Bool} {before after : σ}
    (h : readInt mapping key field required before = .ok () after) :
    ∃ value, after = field.set value before ∧
      Determines IntText (mappingValue mapping key) (field.get before) value := by
  refine readScalar_ok hfield absent_ok (fun text hread => ?_) h
  split at hread
  · cases hread
  · rename_i hgood
    cases hread
    obtain ⟨herange, hconverted, hrest, hmin, hmax⟩ :
        (strtoll (cString text)).erange = false ∧ (strtoll (cString text)).converted = true ∧
          (strtoll (cString text)).rest = [] ∧ intMin ≤ (strtoll (cString text)).value ∧
          (strtoll (cString text)).value ≤ intMax := by
      push Not at hgood
      simpa using hgood
    refine ⟨_, rfl, ?_, hmin, hmax⟩
    rw [← hrest, ← hconverted, ← herange]

theorem readBool_ok {mapping : YamlNode} {key : Bytes} {field : Field σ Bool}
    (hfield : field.Lawful) {before after : σ}
    (h : readBool mapping key field before = .ok () after) :
    ∃ value, after = field.set value before ∧
      Determines BoolText (mappingValue mapping key) (field.get before) value := by
  refine readScalar_ok hfield (fun hread => by cases hread; rfl) (fun text hread => ?_) h
  split at hread
  · rename_i htrue
    cases hread
    exact ⟨true, rfl, Or.inl ⟨rfl, htrue⟩⟩
  · split at hread
    · rename_i hfalse
      cases hread
      exact ⟨false, rfl, Or.inr ⟨rfl, hfalse⟩⟩
    · cases hread

theorem readPort_ok {mapping : YamlNode} {key : Bytes} {field : Field σ Nat} {least : Int}
    (hleast : 0 ≤ least) {message : Bytes} {before after : σ}
    (h : readPort mapping key field least message before = .ok () after) :
    ∃ value, after = field.set value before ∧
      Determines (PortText least) (mappingValue mapping key) (field.get before) value := by
  obtain ⟨config, middle, hget, hread⟩ := bind_ok h
  cases hget
  cases hport : readInt mapping key ⟨id, fun value _ => value⟩ false (field.get before : Int) with
  | error error port =>
    rw [hport] at hread
    cases hread
  | ok _ port =>
    rw [hport] at hread
    simp only at hread
    split at hread
    · cases hread
    · rename_i hrange
      push Not at hrange
      cases hread
      obtain ⟨value, hsame, hvalue⟩ := @readInt_ok Int mapping key ⟨id, fun value _ => value⟩
        (fun _ => rfl) false _ _ hport
      have hvalueEq : port = value := hsame
      rw [← hvalueEq] at hvalue
      refine ⟨port.toNat, rfl, ?_⟩
      cases hnode : mappingValue mapping key with
      | none =>
        rw [hnode] at hvalue
        have hkept : port = (field.get before : Int) := hvalue
        show port.toNat = field.get before
        rw [hkept, Int.toNat_natCast]
      | some node =>
        rw [hnode] at hvalue
        obtain ⟨text, htext, hint⟩ := hvalue
        have hnonneg : ((port.toNat : Nat) : Int) = port := Int.toNat_of_nonneg (by omega)
        refine ⟨text, htext, ?_, ?_, ?_⟩
        · rw [hnonneg]
          exact hint
        · rw [hnonneg]
          exact hrange.1
        · have hle := hrange.2
          omega

end

/-! ## The sections -/

/-- The keys of `server` determine the fields of `gw_server_config`. -/
structure ServerDetermined (node : Option YamlNode) (initial server : GwServerConfig) : Prop where
  enabled : Determines BoolText (inside node (ascii "enabled")) initial.enabled server.enabled
  listen : Determines StringText (inside node (ascii "listen")) initial.listen server.listen
  port : Determines (PortText 0) (inside node (ascii "port")) initial.port server.port

/-- The keys of `recording` determine the fields of `gw_recording_config`. -/
structure RecordingDetermined (node : Option YamlNode)
    (initial recording : GwRecordingConfig) : Prop where
  enabled : Determines BoolText (inside node (ascii "enabled")) initial.enabled recording.enabled
  directory : Determines StringText (inside node (ascii "directory")) initial.directory
    recording.directory
  format : Determines StringText (inside node (ascii "format")) initial.format recording.format
  partDurationSec : Determines IntText (inside node (ascii "part_duration_sec"))
    initial.partDurationSec recording.partDurationSec
  maxPartSizeMb : Determines IntText (inside node (ascii "max_part_size_mb"))
    initial.maxPartSizeMb recording.maxPartSizeMb
  segmentDurationSec : Determines IntText (inside node (ascii "segment_duration_sec"))
    initial.segmentDurationSec recording.segmentDurationSec
  deleteAfterSec : Determines IntText (inside node (ascii "delete_after_sec"))
    initial.deleteAfterSec recording.deleteAfterSec
  minFreeMb : Determines IntText (inside node (ascii "min_free_mb"))
    initial.minFreeMb recording.minFreeMb
  playbackListen : Determines StringText (inside node (ascii "playback_listen"))
    initial.playbackListen recording.playbackListen
  playbackPort : Determines (PortText 1) (inside node (ascii "playback_port"))
    initial.playbackPort recording.playbackPort

/-- The keys of `mediamtx` determine the fields of `gw_mediamtx_config`. -/
structure MediamtxDetermined (node : Option YamlNode)
    (initial mediamtx : GwMediamtxConfig) : Prop where
  publishBaseUrl : Determines StringText (inside node (ascii "publish_base_url"))
    initial.publishBaseUrl mediamtx.publishBaseUrl
  recording : RecordingDetermined (inside node (ascii "recording")) initial.recording
    mediamtx.recording

/-- The keys of `defaults` determine the fields of `gw_retry_policy`. -/
structure DefaultsDetermined (node : Option YamlNode) (initial defaults : GwRetryPolicy) :
    Prop where
  startupTimeoutSec : Determines IntText (inside node (ascii "startup_timeout_sec"))
    initial.startupTimeoutSec defaults.startupTimeoutSec
  progressTimeoutSec : Determines IntText (inside node (ascii "progress_timeout_sec"))
    initial.progressTimeoutSec defaults.progressTimeoutSec
  stableRunSec : Determines IntText (inside node (ascii "stable_run_sec"))
    initial.stableRunSec defaults.stableRunSec
  stopTimeoutSec : Determines IntText (inside node (ascii "stop_timeout_sec"))
    initial.stopTimeoutSec defaults.stopTimeoutSec
  maxRetries : Determines IntText (inside node (ascii "max_retries"))
    initial.maxRetries defaults.maxRetries
  maxBackoffSec : Determines IntText (inside node (ascii "max_backoff_sec"))
    initial.maxBackoffSec defaults.maxBackoffSec

theorem parseServer_ok {server : YamlNode} {before after : GwConfig}
    (h : parseServer server before = .ok () after) :
    ∃ stored, after = { before with server := stored } ∧
      ServerDetermined (some server) before.server stored := by
  obtain ⟨_, middle, hread, h⟩ := bind_ok h
  obtain ⟨enabled, rfl, henabled⟩ := readBool_ok (fun _ => rfl) hread
  obtain ⟨_, middle, hread, h⟩ := bind_ok h
  obtain ⟨listen, rfl, hlisten⟩ := readString_ok (fun _ => rfl) hread
  obtain ⟨port, rfl, hport⟩ := readPort_ok (by decide) h
  exact ⟨⟨enabled, listen, port⟩, rfl, henabled, hlisten, hport⟩

theorem parseRecording_ok {recording : YamlNode} {before after : GwConfig}
    (h : parseRecording recording before = .ok () after) :
    ∃ stored, after = { before with mediamtx.recording := stored } ∧
      RecordingDetermined (some recording) before.mediamtx.recording stored := by
  obtain ⟨_, middle, hread, h⟩ := bind_ok h
  obtain ⟨enabled, rfl, henabled⟩ := readBool_ok (fun _ => rfl) hread
  obtain ⟨_, middle, hread, h⟩ := bind_ok h
  obtain ⟨directory, rfl, hdirectory⟩ := readString_ok (fun _ => rfl) hread
  obtain ⟨_, middle, hread, h⟩ := bind_ok h
  obtain ⟨format, rfl, hformat⟩ := readString_ok (fun _ => rfl) hread
  obtain ⟨_, middle, hread, h⟩ := bind_ok h
  obtain ⟨partDurationSec, rfl, hpart⟩ := readInt_ok (fun _ => rfl) hread
  obtain ⟨_, middle, hread, h⟩ := bind_ok h
  obtain ⟨maxPartSizeMb, rfl, hsize⟩ := readInt_ok (fun _ => rfl) hread
  obtain ⟨_, middle, hread, h⟩ := bind_ok h
  obtain ⟨segmentDurationSec, rfl, hsegment⟩ := readInt_ok (fun _ => rfl) hread
  obtain ⟨_, middle, hread, h⟩ := bind_ok h
  obtain ⟨deleteAfterSec, rfl, hdelete⟩ := readInt_ok (fun _ => rfl) hread
  obtain ⟨_, middle, hread, h⟩ := bind_ok h
  obtain ⟨minFreeMb, rfl, hfree⟩ := readInt_ok (fun _ => rfl) hread
  obtain ⟨_, middle, hread, h⟩ := bind_ok h
  obtain ⟨playbackListen, rfl, hlisten⟩ := readString_ok (fun _ => rfl) hread
  obtain ⟨playbackPort, rfl, hport⟩ := readPort_ok (by decide) h
  exact ⟨⟨enabled, directory, format, partDurationSec, maxPartSizeMb, segmentDurationSec,
    deleteAfterSec, minFreeMb, playbackListen, playbackPort⟩, rfl, henabled, hdirectory, hformat,
    hpart, hsize, hsegment, hdelete, hfree, hlisten, hport⟩

theorem parseDefaults_ok {defaults : YamlNode} {before after : GwConfig}
    (h : parseDefaults defaults before = .ok () after) :
    ∃ stored, after = { before with defaults := stored } ∧
      DefaultsDetermined (some defaults) before.defaults stored := by
  obtain ⟨_, middle, hread, h⟩ := bind_ok h
  obtain ⟨startupTimeoutSec, rfl, hstartup⟩ := readInt_ok (fun _ => rfl) hread
  obtain ⟨_, middle, hread, h⟩ := bind_ok h
  obtain ⟨progressTimeoutSec, rfl, hprogress⟩ := readInt_ok (fun _ => rfl) hread
  obtain ⟨_, middle, hread, h⟩ := bind_ok h
  obtain ⟨stableRunSec, rfl, hstable⟩ := readInt_ok (fun _ => rfl) hread
  obtain ⟨_, middle, hread, h⟩ := bind_ok h
  obtain ⟨stopTimeoutSec, rfl, hstop⟩ := readInt_ok (fun _ => rfl) hread
  obtain ⟨_, middle, hread, h⟩ := bind_ok h
  obtain ⟨maxRetries, rfl, hretries⟩ := readInt_ok (fun _ => rfl) hread
  obtain ⟨maxBackoffSec, rfl, hbackoff⟩ := readInt_ok (fun _ => rfl) h
  exact ⟨⟨startupTimeoutSec, progressTimeoutSec, stableRunSec, stopTimeoutSec, maxRetries,
    maxBackoffSec⟩, rfl, hstartup, hprogress, hstable, hstop, hretries, hbackoff⟩

theorem parseMediamtx_ok {mediamtx : YamlNode} {before after : GwConfig}
    (h : parseMediamtx mediamtx before = .ok () after) :
    ∃ stored, after = { before with mediamtx := stored } ∧
      MediamtxDetermined (some mediamtx) before.mediamtx stored ∧
      ∀ recording, mappingValue mediamtx (ascii "recording") = some recording →
        recording.isMapping = true := by
  obtain ⟨_, middle, hread, h⟩ := bind_ok h
  obtain ⟨publishBaseUrl, rfl, hpublish⟩ := readString_ok (fun _ => rfl) hread
  cases hnode : mappingValue mediamtx (ascii "recording") with
  | none =>
    rw [hnode] at h
    cases h
    have habsent : inside (some mediamtx) (ascii "recording") = none := hnode
    refine ⟨⟨publishBaseUrl, before.mediamtx.recording⟩, rfl, ⟨hpublish, ?_⟩, nofun⟩
    rw [habsent]
    exact ⟨rfl, rfl, rfl, rfl, rfl, rfl, rfl, rfl, rfl, rfl⟩
  | some recording =>
    rw [hnode] at h
    simp only at h
    split at h
    · rename_i hmapping
      obtain ⟨stored, rfl, hrecording⟩ := parseRecording_ok h
      have hpresent : inside (some mediamtx) (ascii "recording") = some recording := hnode
      refine ⟨⟨publishBaseUrl, stored⟩, rfl, ⟨hpublish, ?_⟩, ?_⟩
      · rw [hpresent]
        exact hrecording
      · rintro _ ⟨⟩
        exact hmapping
    · cases h

/-- The channels leave the sections as they are. -/
theorem parseChannels_keeps {environment : Environment} {items : List YamlNode}
    {before after : GwConfig} (h : parseChannels environment items before = .ok () after) :
    after.server = before.server ∧ after.mediamtx = before.mediamtx ∧
      after.defaults = before.defaults := by
  induction items generalizing before with
  | nil =>
    cases h
    exact ⟨rfl, rfl, rfl⟩
  | cons item rest ih =>
    obtain ⟨config, middle, hget, h⟩ := bind_ok h
    cases hget
    split at h
    · cases h
    · cases hchannel : parseChannel environment item before.channels.length channelInit with
      | error error channel =>
        rw [hchannel] at h
        cases h
      | ok _ channel =>
        rw [hchannel] at h
        obtain ⟨_, middle, hset, h⟩ := bind_ok h
        cases hset
        have hkeeps := ih h
        exact hkeeps

/-! ## Documents -/

/-- The keys of the sections at the root, besides the channels. -/
def topSections : List Bytes := [ascii "server", ascii "mediamtx", ascii "defaults"]

/-- The sections at the root that are present are mappings. -/
def TopMappings (root : YamlNode) : Prop :=
  ∀ key ∈ topSections, ∀ node, mappingValue root key = some node → node.isMapping = true

/-- Nothing that a document configures is ignored: the sections that are present
are mappings, and every key in them determines its field, which keeps the value of
`gw_config_init` when the key is absent. -/
structure NothingIgnored (root : YamlNode) (config : GwConfig) : Prop where
  mappings : TopMappings root
  recordingMapping : ∀ node,
    inside (mappingValue root (ascii "mediamtx")) (ascii "recording") = some node →
      node.isMapping = true
  server : ServerDetermined (mappingValue root (ascii "server")) gwConfigInit.server config.server
  mediamtx : MediamtxDetermined (mappingValue root (ascii "mediamtx")) gwConfigInit.mediamtx
    config.mediamtx
  defaults : DefaultsDetermined (mappingValue root (ascii "defaults")) gwConfigInit.defaults
    config.defaults

/-- What a section that is present stores holds of an absent one that stores
nothing. -/
theorem whenPresent_ok {node : Option YamlNode} {parse : YamlNode → Parse GwConfig Unit}
    {before after : GwConfig} (h : whenPresent node parse before = .ok () after) :
    (node = none ∧ after = before) ∨
      ∃ present, node = some present ∧ parse present before = .ok () after := by
  cases node with
  | none =>
    cases h
    exact Or.inl ⟨rfl, rfl⟩
  | some present => exact Or.inr ⟨present, rfl, h⟩

theorem server_ok {node : Option YamlNode} {before after : GwConfig}
    (h : whenPresent node parseServer before = .ok () after) :
    ∃ stored, after = { before with server := stored } ∧
      ServerDetermined node before.server stored := by
  obtain ⟨rfl, rfl⟩ | ⟨server, rfl, h⟩ := whenPresent_ok h
  · exact ⟨after.server, rfl, rfl, rfl, rfl⟩
  · exact parseServer_ok h

theorem mediamtx_ok {node : Option YamlNode} {before after : GwConfig}
    (h : whenPresent node parseMediamtx before = .ok () after) :
    ∃ stored, after = { before with mediamtx := stored } ∧
      MediamtxDetermined node before.mediamtx stored ∧
      ∀ recording, inside node (ascii "recording") = some recording →
        recording.isMapping = true := by
  obtain ⟨rfl, rfl⟩ | ⟨mediamtx, rfl, h⟩ := whenPresent_ok h
  · exact ⟨after.mediamtx, rfl,
      ⟨rfl, rfl, rfl, rfl, rfl, rfl, rfl, rfl, rfl, rfl, rfl⟩, nofun⟩
  · exact parseMediamtx_ok h

theorem defaults_ok {node : Option YamlNode} {before after : GwConfig}
    (h : whenPresent node parseDefaults before = .ok () after) :
    ∃ stored, after = { before with defaults := stored } ∧
      DefaultsDetermined node before.defaults stored := by
  obtain ⟨rfl, rfl⟩ | ⟨defaults, rfl, h⟩ := whenPresent_ok h
  · exact ⟨after.defaults, rfl, rfl, rfl, rfl, rfl, rfl, rfl⟩
  · exact parseDefaults_ok h

/-- What an accepted document configures.  Nothing of it is ignored exactly when
`server`, `mediamtx` and `defaults`, where they are present, are mappings. -/
theorem parse_document_sections {environment : Environment} {root : Option YamlNode}
    {config : GwConfig} (h : parseDocument environment root gwConfigInit = .ok () config) :
    ∃ node, root = some node ∧ (NothingIgnored node config ↔ TopMappings node) := by
  cases root with
  | none => cases h
  | some root =>
    refine ⟨root, rfl, fun hnothing => hnothing.mappings, fun hmappings => ?_⟩
    unfold parseDocument at h
    simp only at h
    split at h
    · obtain ⟨_, middle, hread, h⟩ := bind_ok h
      obtain ⟨server, rfl, hserver⟩ := server_ok hread
      obtain ⟨_, middle, hread, h⟩ := bind_ok h
      obtain ⟨mediamtx, rfl, hmediamtx, hrecording⟩ := mediamtx_ok hread
      obtain ⟨_, middle, hread, h⟩ := bind_ok h
      obtain ⟨defaults, rfl, hdefaults⟩ := defaults_ok hread
      obtain ⟨items, h⟩ : ∃ items, parseChannels environment items
          { gwConfigInit with server := server, mediamtx := mediamtx, defaults := defaults } =
            .ok () config := by
        cases hchannels : mappingValue root (ascii "channels") with
        | none =>
          rw [hchannels] at h
          cases h
        | some channels =>
          rw [hchannels] at h
          cases channels with
          | scalar value => cases h
          | mapping pairs => cases h
          | sequence items => exact ⟨items, h⟩
      obtain ⟨hkept, hkept', hkept''⟩ := parseChannels_keeps h
      refine ⟨hmappings, hrecording, ?_, ?_, ?_⟩
      · rw [hkept]
        exact hserver
      · rw [hkept']
        exact hmediamtx
      · rw [hkept'']
        exact hdefaults
    · cases h

/-- A scalar node that holds a text. -/
def scalarNode (text : String) : YamlNode := .scalar (ascii text)

/-- A document that sets a port. -/
def portDocument : YamlNode :=
  .mapping [(scalarNode "server", .mapping [(scalarNode "port", scalarNode "8080")]),
    (scalarNode "channels", .sequence [])]

/-- A document in which `server` is a scalar. -/
def scalarServer : YamlNode :=
  .mapping [(scalarNode "server", scalarNode "8080"), (scalarNode "channels", .sequence [])]

theorem parse_document_sections_port :
    NothingIgnored portDocument { gwConfigInit with server.port := 8080 } := by
  have hparse : parseDocument emptyEnvironment (some portDocument) gwConfigInit =
      .ok () { gwConfigInit with server.port := 8080 } := rfl
  obtain ⟨node, hroot, hiff⟩ := parse_document_sections hparse
  cases hroot
  apply hiff.mpr
  intro key hkey node hnode
  simp only [topSections, List.mem_cons, List.not_mem_nil, or_false] at hkey
  rcases hkey with rfl | rfl | rfl
  · cases hnode
    rfl
  · cases hnode
  · cases hnode

/-- A `server` that is a scalar is accepted, and the server keeps its defaults. -/
theorem parse_document_sections_counterexample :
    parseDocument emptyEnvironment (some scalarServer) gwConfigInit = .ok () gwConfigInit ∧
      ¬ NothingIgnored scalarServer gwConfigInit := by
  refine ⟨rfl, fun hnothing => ?_⟩
  have hmapping := hnothing.mappings (ascii "server") List.mem_cons_self (scalarNode "8080") rfl
  cases hmapping

end LearnApue.Gateway
