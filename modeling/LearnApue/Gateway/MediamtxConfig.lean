import LearnApue.Foundation.BoundedWriter
import LearnApue.Foundation.Decimal
import LearnApue.Gateway.Config

set_option autoImplicit false

/-!
# Gateway: the MediaMTX configuration (`mediamtx_config.h`, `mediamtx_config.c`)

`gw_mediamtx_render_config` writes the whole text or none, and every accepted
configuration fits the buffer of `--print-mediamtx-config`
(`gwMediamtxRenderConfig_all_or_nothing`).  The playback address it writes is a
host and a port exactly for IPv4 addresses (`playbackAddress_parses_iff`): an IPv6
address is not put in brackets.
-/

namespace LearnApue.Gateway

open LearnApue.Foundation

/-! ## Rendering -/

/-- `GW_MEDIAMTX_CONFIG_CAP`. -/
def gwMediamtxConfigCap : Nat := 65536

/-- `true` or `false`. -/
def yamlBool (value : Bool) : Bytes := if value then ascii "true" else ascii "false"

/-- The text up to the value of `playback`. -/
def headerStart : Bytes :=
  ascii "# Generated by gatewayd; reload MediaMTX after replacing its config.\n" ++
    ascii "rtsp: true\nrtspTransports: [tcp]\nrtspAddress: '127.0.0.1:8554'\nrtmp: false\n" ++
    ascii "hls: false\nwebrtc: true\nwebrtcAddress: ':8889'\nwebrtcLocalUDPAddress: ':8189'\n" ++
    ascii "webrtcIPsFromInterfaces: true\nsrt: false\nmoq: false\nplayback: "

/-- The key of the playback address and its opening quote. -/
def addressKey : Bytes := ascii "playbackAddress: '"

/-- The value of `playbackAddress`. -/
def playbackAddress (recording : GwRecordingConfig) : Bytes :=
  recording.playbackListen.bytes ++ ascii ":" ++ decimalNat recording.playbackPort

/-- The text after the value of `playbackAddress`. -/
def headerEnd : Bytes :=
  ascii "'\npathDefaults:\n  source: publisher\n  record: false\npaths:\n"

/-- The text of the first `append`. -/
def headerText (recording : GwRecordingConfig) : Bytes :=
  headerStart ++ yamlBool recording.enabled ++ [newline] ++ addressKey ++
    playbackAddress recording ++ headerEnd

/-- The text of the `append` for one channel. -/
def pathText (recording : GwRecordingConfig) (channel : GwChannelConfig) : Bytes :=
  ascii "  " ++ channel.output.path.bytes ++ ascii ":\n    record: " ++
    yamlBool (recording.enabled && channel.enabled) ++ ascii "\n    recordPath: '" ++
    recording.directory.bytes ++ ascii "/%path/%Y-%m-%d_%H-%M-%S-%f'\n    recordFormat: " ++
    recording.format.bytes ++ ascii "\n    recordPartDuration: " ++
    decimalInt recording.partDurationSec ++ ascii "s\n    recordMaxPartSize: " ++
    decimalInt recording.maxPartSizeMb ++ ascii "M\n    recordSegmentDuration: " ++
    decimalInt recording.segmentDurationSec ++ ascii "s\n    recordDeleteAfter: " ++
    decimalInt recording.deleteAfterSec ++ ascii "s\n"

/-- The writer after the header and the loop over the channels. -/
def renderConfig (config : GwConfig) (writer : BoundedWriter) : BoundedWriter :=
  let recording := config.mediamtx.recording
  config.channels.foldl (fun writer channel => writer.append (pathText recording channel))
    (writer.append (headerText recording))

/-- `gw_mediamtx_render_config`: the status and the string in the output buffer, which
held `output`. -/
def gwMediamtxRenderConfig (config : GwConfig) (output : Bytes) (capacity : Nat) :
    Except GwError Unit × Bytes :=
  if capacity = 0 then
    (.error (gwErrorSet .errArgument (ascii "configuration and output buffer are required")),
      output)
  else
    match gwConfigValidate config with
    | .error error => (.error error, [])
    | .ok _ =>
        let writer := renderConfig config (.start capacity)
        if writer.failed then
          (.error (gwErrorSet .errOverflow
            (ascii "MediaMTX configuration exceeds output capacity")), [])
        else (.ok (), writer.data)

/-- `print_mediamtx_config`, with what `fputs` answers: the exit status, and what goes to
stdout and to stderr. -/
def printMediamtxConfig (config : GwConfig) (fputs : Option Errno) : Int × Bytes × Bytes :=
  match gwMediamtxRenderConfig config [] gwMediamtxConfigCap with
  | (.error error, _) =>
      (1, [], ascii "MediaMTX configuration error (" ++ gwStatusString error.code ++
        ascii "): " ++ error.message ++ [newline])
  | (.ok _, output) =>
      match fputs with
      | some errno =>
          (1, [], ascii "Cannot write MediaMTX configuration: " ++ errno.text ++ [newline])
      | none => (0, output, [])

/-! ## All or nothing -/

/-- The whole text. -/
def configText (config : GwConfig) : Bytes :=
  headerText config.mediamtx.recording ++
    config.channels.flatMap (pathText config.mediamtx.recording)

section AllOrNothing

variable {config : GwConfig} {recording : GwRecordingConfig} {channel : GwChannelConfig}

theorem renderConfig_writes (config : GwConfig) :
    BoundedWriter.Writes (configText config) (renderConfig config) :=
  (BoundedWriter.writes_append _).andThen
    (BoundedWriter.writes_foldl (fun _ => BoundedWriter.writes_append _) _)

theorem gwMediamtxRenderConfig_eq (hvalid : gwConfigValidate config = .ok ()) (output : Bytes)
    {capacity : Nat} (hcapacity : 0 < capacity) :
    gwMediamtxRenderConfig config output capacity =
      if (configText config).length < capacity then (.ok (), configText config)
      else (.error (gwErrorSet .errOverflow
        (ascii "MediaMTX configuration exceeds output capacity")), []) := by
  obtain ⟨hfailed, hwritten⟩ := (renderConfig_writes config).start hcapacity
  simp only [gwMediamtxRenderConfig, hvalid, if_neg (Nat.ne_of_gt hcapacity)]
  by_cases hfits : (configText config).length < capacity
  · have hok : (renderConfig config (.start capacity)).failed = false := by
      by_contra hnot
      exact absurd (hfailed.mp (Bool.eq_true_of_not_eq_false hnot)) (by omega)
    rw [if_pos hfits, hok, (hwritten hok).1]
    rfl
  · rw [if_neg hfits, hfailed.mpr (by omega)]
    rfl

/-! ## The size of the text -/

theorem yamlBool_length (value : Bool) : (yamlBool value).length ≤ 5 := by
  cases value <;> decide

theorem headerText_length (hrep : recording.Representable) :
    (headerText recording).length ≤ 436 := by
  have hport : (decimalNat recording.playbackPort).length ≤ 5 :=
    decimalNat_length_le (by decide) (lt_trans hrep.playbackPort (by decide))
  have hlisten := recording.playbackListen.fits
  have hbool := yamlBool_length recording.enabled
  have hstart : headerStart.length = 284 := by
    rw [headerStart, ascii_ofList, ascii_ofList, ascii_ofList, ascii_ofList]
    decide +kernel
  have hkey : addressKey.length = 18 := by decide
  have hcolon : (ascii ":").length = 1 := by decide
  have hend : headerEnd.length = 59 := by
    rw [headerEnd, ascii_ofList]
    rfl
  unfold listenCap at hlisten
  simp only [headerText, playbackAddress, List.length_append, List.length_singleton]
  omega

/-- The longest text for a channel has 858 bytes. -/
theorem pathText_length (haccepted : RecordingAccepted recording) (hrep : recording.Representable)
    (channel : GwChannelConfig) : (pathText recording channel).length ≤ 858 := by
  have hlimits := haccepted.limits
  simp only [recordingLimits, Bool.and_eq_true, decide_eq_true_eq] at hlimits
  have hpart : (decimalInt recording.partDurationSec).length ≤ 2 :=
    decimalInt_length_le_of_nonneg (by decide) (by omega) (by omega)
  have hsize : (decimalInt recording.maxPartSizeMb).length ≤ 4 :=
    decimalInt_length_le_of_nonneg (by decide) (by omega) (by omega)
  have hsegment : (decimalInt recording.segmentDurationSec).length ≤ 5 :=
    decimalInt_length_le_of_nonneg (by decide) (by omega) (by omega)
  have hdelete : (decimalInt recording.deleteAfterSec).length ≤ 10 := by
    have hint := hrep.integers recording.deleteAfterSec (by simp)
    unfold intMax at hint
    exact decimalInt_length_le_of_nonneg (by decide) (by omega) (by omega)
  have hformat : recording.format.bytes.length ≤ 6 := by
    rcases haccepted.format with h | h
    · rw [h]
      decide
    · rw [h]
      decide
  have hpath := channel.output.path.fits
  have hdirectory := recording.directory.fits
  have hbool := yamlBool_length (recording.enabled && channel.enabled)
  unfold gwPathCap at hpath
  unfold gwFilePathCap at hdirectory
  have hliterals : (ascii "  ").length = 2 ∧ (ascii ":\n    record: ").length = 14 ∧
      (ascii "\n    recordPath: '").length = 18 ∧
      (ascii "/%path/%Y-%m-%d_%H-%M-%S-%f'\n    recordFormat: ").length = 47 ∧
      (ascii "\n    recordPartDuration: ").length = 25 ∧
      (ascii "s\n    recordMaxPartSize: ").length = 25 ∧
      (ascii "M\n    recordSegmentDuration: ").length = 29 ∧
      (ascii "s\n    recordDeleteAfter: ").length = 25 ∧ (ascii "s\n").length = 2 := by
    refine ⟨?_, ?_, ?_, ?_, ?_, ?_, ?_, ?_, ?_⟩ <;> rw [ascii_ofList] <;> rfl
  simp only [pathText, List.length_append]
  omega

/-- The text of an accepted configuration fits the buffer. -/
theorem configText_length (hvalid : gwConfigValidate config = .ok ())
    (hfits : config.channels.length ≤ gwMaxChannels)
    (hrep : config.mediamtx.recording.Representable) :
    (configText config).length < gwMediamtxConfigCap := by
  have haccepted := gwConfigValidate_recording hvalid
  have hheader := headerText_length hrep
  have hpaths : (config.channels.flatMap (pathText config.mediamtx.recording)).length ≤
      config.channels.length * 858 := by
    rw [List.length_flatMap]
    refine (List.sum_le_card_nsmul _ 858 ?_).trans (by rw [List.length_map, smul_eq_mul])
    intro length hlength
    obtain ⟨channel, -, rfl⟩ := List.mem_map.mp hlength
    exact pathText_length haccepted hrep channel
  have hroom : config.channels.length * 858 ≤ 64 * 858 := Nat.mul_le_mul_right 858 hfits
  rw [configText, List.length_append]
  unfold gwMediamtxConfigCap
  omega

/-- The rendering writes the whole text or none, and the text of an accepted
configuration fits the buffer it is printed from. -/
theorem gwMediamtxRenderConfig_all_or_nothing (hvalid : gwConfigValidate config = .ok ())
    (hfits : config.channels.length ≤ gwMaxChannels)
    (hrep : config.mediamtx.recording.Representable) :
    (∀ output capacity, 1 ≤ capacity → gwMediamtxRenderConfig config output capacity =
      if (configText config).length < capacity then (.ok (), configText config)
      else (.error (gwErrorSet .errOverflow
        (ascii "MediaMTX configuration exceeds output capacity")), [])) ∧
    (configText config).length < gwMediamtxConfigCap ∧
    printMediamtxConfig config none = (0, configText config, []) := by
  have hlength := configText_length hvalid hfits hrep
  refine ⟨fun output capacity hcapacity => gwMediamtxRenderConfig_eq hvalid output hcapacity,
    hlength, ?_⟩
  have hrender := @gwMediamtxRenderConfig_eq config hvalid [] gwMediamtxConfigCap (by decide)
  rw [if_pos hlength] at hrender
  rw [printMediamtxConfig, hrender]

theorem gwMediamtxRenderConfig_all_or_nothing_watched :
    (∀ output capacity, 1 ≤ capacity →
      gwMediamtxRenderConfig (configOf [watchedChannel (ascii "front")]) output capacity =
        if (configText (configOf [watchedChannel (ascii "front")])).length < capacity then
          (.ok (), configText (configOf [watchedChannel (ascii "front")]))
        else (.error (gwErrorSet .errOverflow
          (ascii "MediaMTX configuration exceeds output capacity")), [])) ∧
    (configText (configOf [watchedChannel (ascii "front")])).length < gwMediamtxConfigCap ∧
    printMediamtxConfig (configOf [watchedChannel (ascii "front")]) none =
      (0, configText (configOf [watchedChannel (ascii "front")]), []) :=
  gwMediamtxRenderConfig_all_or_nothing watchedFront_valid (by decide) ⟨by decide, by decide⟩

/-- A buffer of `GW_MEDIAMTX_CONFIG_CAP` takes the whole text. -/
theorem gwMediamtxRenderConfig_cap (hvalid : gwConfigValidate config = .ok ())
    (hfits : config.channels.length ≤ gwMaxChannels)
    (hrep : config.mediamtx.recording.Representable) :
    gwMediamtxRenderConfig config [] gwMediamtxConfigCap = (.ok (), configText config) := by
  rw [gwMediamtxRenderConfig_eq hvalid [] (by decide),
    if_pos (configText_length hvalid hfits hrep)]

end AllOrNothing

/-! ## The playback address -/

/-- `'\''`. -/
def singleQuote : Byte := 39

/-- The value of `playbackAddress` in a rendered configuration. -/
def playbackAddressOf (output : Bytes) : Option Bytes :=
  (strstr output addressKey).map fun (_, rest) => rest.takeWhile fun b => b ≠ singleQuote

/-- A host and a port as MediaMTX splits them: a host in square brackets, or one that has
no colon, then a colon and decimal digits. -/
def splitHostPort (text : Bytes) : Option (Bytes × Nat) :=
  let (host, rest) :=
    if text.head? = some (byte '[') then
      (text.tail.takeWhile fun b => b ≠ byte ']',
        (text.tail.dropWhile fun b => b ≠ byte ']').tail)
    else
      (text.takeWhile fun b => b ≠ byte ':', text.dropWhile fun b => b ≠ byte ':')
  match rest with
  | [] => none
  | colon :: port =>
      if colon = byte ':' ∧ port ≠ [] ∧ port.all isDigit = true then some (host, digitsValue 0 port)
      else none

/-- A byte of a numeric address. -/
def addressByte (b : Byte) : Bool :=
  (hexDigitValue b).isSome || b == byte ':' || b == byte '.'

section Address

variable {text curtok : Bytes} {config : GwConfig}

theorem addressByte_of_isDigit {b : Byte} (h : isDigit b = true) : addressByte b = true := by
  simp [addressByte, hexDigitValue, h]

/-- A dotted quad has digits and dots only. -/
theorem ipv4Scan_bytes {scan scan' : Ipv4Scan} (h : text.foldlM Ipv4Scan.next scan = some scan') :
    ∀ b ∈ text, isDigit b = true ∨ b = byte '.' := by
  induction text generalizing scan with
  | nil => simp
  | cons head rest ih =>
    rw [List.foldlM_cons] at h
    obtain ⟨middle, hhead, hrest⟩ := Option.bind_eq_some_iff.mp h
    intro b hb
    rcases List.mem_cons.mp hb with rfl | hb
    · unfold Ipv4Scan.next at hhead
      split at hhead
      · rename_i hdigit
        exact Or.inl hdigit
      · split at hhead
        · rename_i hdot
          exact Or.inr hdot.1
        · cases hhead
    · exact ih hrest b hb

theorem inetPton4_bytes (h : inetPton4 text = true) :
    ∀ b ∈ text, isDigit b = true ∨ b = byte '.' := by
  unfold inetPton4 at h
  cases hscan : text.foldlM Ipv4Scan.next ⟨0, 0, false⟩ with
  | none =>
    rw [hscan] at h
    cases h
  | some scan => exact ipv4Scan_bytes hscan

theorem inetPton4_no_colon (h : inetPton4 text = true) : byte ':' ∉ text := by
  intro hcolon
  rcases inetPton4_bytes h _ hcolon with hdigit | hdot
  · cases hdigit
  · cases hdot

/-- The bytes the scan of an IPv6 address has yet to read. -/
theorem inetPton6Loop_bytes {scan : Ipv6Scan} (hsuffix : text <:+ curtok)
    (h : inetPton6Loop curtok scan text = true) : ∀ b ∈ text, addressByte b = true := by
  induction text generalizing curtok scan with
  | nil => simp
  | cons head rest ih =>
    have hrest : rest <:+ curtok := (List.suffix_cons head rest).trans hsuffix
    unfold inetPton6Loop at h
    have hcons : addressByte head = true → (∀ b ∈ rest, addressByte b = true) →
        ∀ b ∈ head :: rest, addressByte b = true := by
      intro hhead htail b hb
      rcases List.mem_cons.mp hb with rfl | hb
      · exact hhead
      · exact htail b hb
    cases hdigit : hexDigitValue head with
    | some digit =>
      simp only [hdigit] at h
      refine hcons (by simp [addressByte, hdigit]) ?_
      split at h
      · cases h
      · split at h
        · cases h
        · exact ih hrest h
    | none =>
      simp only [hdigit] at h
      by_cases hcolon : head = byte ':'
      · rw [if_pos hcolon] at h
        refine hcons (by simp [addressByte, hcolon]) ?_
        split at h
        · split at h
          · cases h
          · exact ih (List.suffix_refl rest) h
        · split at h
          · cases h
          · split at h
            · cases h
            · exact ih (List.suffix_refl rest) h
      · rw [if_neg hcolon] at h
        split at h
        · rename_i hdot
          -- the dotted quad is read from the start of the group
          intro b hb
          rcases inetPton4_bytes hdot.2.2 b (hsuffix.subset hb) with hdigit | hdot
          · exact addressByte_of_isDigit hdigit
          · simp [addressByte, hdot]
        · cases h

theorem finish_of_one_group {scan : Ipv6Scan} (hfilled : scan.filled = 0)
    (hnone : scan.colonp = false) : scan.finish = false := by
  unfold Ipv6Scan.finish
  split
  · rfl
  · simp only [hfilled, hnone, Bool.false_eq_true, if_false]
    split <;> rfl

/-- Without a colon no more than one group is read. -/
theorem inetPton6Loop_colon {scan : Ipv6Scan} (hcolon : byte ':' ∉ text)
    (hfilled : scan.filled = 0) (hnone : scan.colonp = false) :
    inetPton6Loop curtok scan text = false := by
  induction text generalizing scan with
  | nil =>
    unfold inetPton6Loop
    exact finish_of_one_group hfilled hnone
  | cons head rest ih =>
    have hhead : head ≠ byte ':' := fun heq => hcolon (heq ▸ List.mem_cons_self)
    have hrest : byte ':' ∉ rest := fun hmem => hcolon (List.mem_cons_of_mem _ hmem)
    unfold inetPton6Loop
    cases hdigit : hexDigitValue head with
    | some digit =>
      dsimp only
      split
      · rfl
      · split
        · rfl
        · exact ih hrest hfilled hnone
    | none =>
      dsimp only
      rw [if_neg hhead]
      split
      · simp [Ipv6Scan.finish, hfilled, hnone]
      · rfl

theorem inetPton6_colon (h : inetPton6 text = true) : byte ':' ∈ text := by
  by_contra hcolon
  unfold inetPton6 at h
  cases text with
  | nil => cases h
  | cons head rest =>
    have hhead : head ≠ byte ':' := fun heq => hcolon (heq ▸ List.mem_cons_self)
    dsimp only at h
    rw [if_neg hhead, inetPton6Loop_colon hcolon rfl rfl] at h
    cases h

theorem inetPton6_bytes (h : inetPton6 text = true) : ∀ b ∈ text, addressByte b = true := by
  unfold inetPton6 at h
  cases text with
  | nil => cases h
  | cons head rest =>
    dsimp only at h
    by_cases hhead : head = byte ':'
    · rw [if_pos hhead] at h
      intro b hb
      rcases List.mem_cons.mp hb with rfl | hb
      · simp [addressByte, hhead]
      · split at h
        · exact inetPton6Loop_bytes (List.suffix_refl rest) h b hb
        · cases h
    · rw [if_neg hhead] at h
      exact inetPton6Loop_bytes (List.suffix_refl (head :: rest)) h

theorem numericAddress_bytes (h : numericAddress text = true) :
    ∀ b ∈ text, addressByte b = true := by
  rcases Bool.or_eq_true_iff.mp h with h4 | h6
  · intro b hb
    rcases inetPton4_bytes h4 b hb with hdigit | hdot
    · exact addressByte_of_isDigit hdigit
    · simp [addressByte, hdot]
  · exact inetPton6_bytes h6

/-- A numeric address is a dotted quad when it has no colon. -/
theorem inetPton4_iff_no_colon (h : numericAddress text = true) :
    inetPton4 text = true ↔ byte ':' ∉ text := by
  refine ⟨inetPton4_no_colon, fun hcolon => ?_⟩
  rcases Bool.or_eq_true_iff.mp h with h4 | h6
  · exact h4
  · exact absurd (inetPton6_colon h6) hcolon

/-! ## Reading the address back -/

/-- The split finds the host of an unbracketed text when the host has no colon. -/
theorem splitHostPort_iff (hbracket : text.head? ≠ some (byte '[')) (port : Nat) :
    splitHostPort (text ++ ascii ":" ++ decimalNat port) = some (text, port) ↔
      byte ':' ∉ text := by
  have hhead : (text ++ ascii ":" ++ decimalNat port).head? ≠ some (byte '[') := by
    cases text with
    | nil => exact fun heq => absurd (Option.some.inj heq) (by decide)
    | cons head rest => exact hbracket
  unfold splitHostPort
  rw [if_neg hhead]
  constructor
  · intro h hcolon
    dsimp only at h
    split at h
    · cases h
    · split at h
      · have hhost := (Prod.mk.inj (Option.some.inj h)).1
        rw [← hhost] at hcolon
        exact absurd (List.mem_takeWhile_imp hcolon) (by simp)
      · cases h
  · intro hcolon
    have hall : ∀ b ∈ text, decide (b ≠ byte ':') = true := by
      intro b hb
      exact decide_eq_true fun heq => hcolon (heq ▸ hb)
    have hport : (decimalNat port).all isDigit = true :=
      List.all_eq_true.mpr fun b hb => isDigit_of_mem_decimalNat hb
    rw [List.append_assoc, List.takeWhile_append_of_pos hall, List.dropWhile_append_of_pos hall]
    simp [ascii, byte, hport, decimalNat_ne_nil, digitsValue_decimalNat]

theorem playbackAddress_no_quote (h : numericAddress config.mediamtx.recording.playbackListen.bytes
    = true) : ∀ b ∈ playbackAddress config.mediamtx.recording, b ≠ singleQuote := by
  rintro b hb rfl
  rcases List.mem_append.mp hb with hb | hport
  · rcases List.mem_append.mp hb with hlisten | hcolon
    · exact absurd (numericAddress_bytes h _ hlisten) (by decide)
    · exact absurd hcolon (by decide)
  · exact absurd (isDigit_of_mem_decimalNat hport) (by decide)

theorem playbackAddressOf_configText (hvalid : gwConfigValidate config = .ok ()) :
    playbackAddressOf (configText config) =
      some (playbackAddress config.mediamtx.recording) := by
  have hfirst : ∀ enabled,
      strstr (headerStart ++ yamlBool enabled ++ [newline] ++ addressKey) addressKey =
        some (headerStart ++ yamlBool enabled ++ [newline], []) := by
    unfold headerStart addressKey yamlBool
    rw [ascii_ofList, ascii_ofList, ascii_ofList, ascii_ofList, ascii_ofList, ascii_ofList,
      ascii_ofList]
    decide +kernel
  have hquote : ∀ b ∈ playbackAddress config.mediamtx.recording,
      decide (b ≠ singleQuote) = true := fun b hb =>
    decide_eq_true (playbackAddress_no_quote (gwConfigValidate_recording hvalid).playbackListen b hb)
  have htext : configText config =
      headerStart ++ yamlBool config.mediamtx.recording.enabled ++ [newline] ++ addressKey ++
        (playbackAddress config.mediamtx.recording ++ (headerEnd ++
          config.channels.flatMap (pathText config.mediamtx.recording))) := by
    simp only [configText, headerText, List.append_assoc]
  have hend : (headerEnd ++ config.channels.flatMap (pathText config.mediamtx.recording)).takeWhile
      (fun b => decide (b ≠ singleQuote)) = [] := rfl
  rw [playbackAddressOf, htext, strstr_append (hfirst _), Option.map_some]
  dsimp only
  rw [List.takeWhile_append_of_pos hquote, hend, List.append_nil]

/-- The playback address is read back as the configured host and port exactly for IPv4
addresses. -/
theorem playbackAddress_parses_iff (hvalid : gwConfigValidate config = .ok ()) {output : Bytes}
    {capacity : Nat} {written : Bytes}
    (hrender : gwMediamtxRenderConfig config output capacity = (.ok (), written)) :
    (playbackAddressOf written).bind splitHostPort =
        some (config.mediamtx.recording.playbackListen.bytes,
          config.mediamtx.recording.playbackPort) ↔
      inetPton4 config.mediamtx.recording.playbackListen.bytes = true := by
  have haddress := (gwConfigValidate_recording hvalid).playbackListen
  have hwritten : written = configText config := by
    cases capacity with
    | zero => cases hrender
    | succ n =>
      rw [gwMediamtxRenderConfig_eq hvalid output n.succ_pos] at hrender
      split at hrender
      · exact (Prod.mk.inj hrender).2.symm
      · cases hrender
  have hbracket : config.mediamtx.recording.playbackListen.bytes.head? ≠ some (byte '[') := by
    intro hhead
    exact absurd (numericAddress_bytes haddress _ (List.mem_of_head? hhead)) (by decide)
  rw [hwritten, playbackAddressOf_configText hvalid, inetPton4_iff_no_colon haddress]
  exact splitHostPort_iff hbracket config.mediamtx.recording.playbackPort

theorem playbackAddress_parses_iff_watched :
    ∃ written, gwMediamtxRenderConfig (configOf [watchedChannel (ascii "front")]) []
        gwMediamtxConfigCap = (.ok (), written) ∧
      (playbackAddressOf written).bind splitHostPort = some (ascii "127.0.0.1", 9996) := by
  have hrender : gwMediamtxRenderConfig (configOf [watchedChannel (ascii "front")]) []
      gwMediamtxConfigCap = (.ok (), configText (configOf [watchedChannel (ascii "front")])) :=
    gwMediamtxRenderConfig_cap watchedFront_valid (by decide) ⟨by decide, by decide⟩
  exact ⟨_, hrender, (playbackAddress_parses_iff watchedFront_valid hrender).mpr (by decide)⟩

/-- The IPv6 loopback address is accepted and written without brackets. -/
def loopbackConfig : GwConfig :=
  let config := configOf [watchedChannel (ascii "front")]
  { config with
    mediamtx :=
      { config.mediamtx with
        recording :=
          { config.mediamtx.recording with
            playbackListen := ⟨ascii "::1", by decide, by decide⟩ } } }

theorem playbackAddress_of_ipv6 :
    ∃ written, gwConfigValidate loopbackConfig = .ok () ∧
      gwMediamtxRenderConfig loopbackConfig [] gwMediamtxConfigCap = (.ok (), written) ∧
      playbackAddressOf written = some (ascii "::1:9996") ∧
      (playbackAddressOf written).bind splitHostPort = none := by
  have hvalid : gwConfigValidate loopbackConfig = .ok () := by decide +kernel
  have hrender := gwMediamtxRenderConfig_cap hvalid (by decide) ⟨by decide, by decide⟩
  have haddress : playbackAddress loopbackConfig.mediamtx.recording = ascii "::1:9996" := by
    decide +kernel
  refine ⟨configText loopbackConfig, hvalid, hrender, ?_, ?_⟩
  · rw [playbackAddressOf_configText hvalid, haddress]
  · rw [playbackAddressOf_configText hvalid, haddress]
    decide +kernel

end Address

end LearnApue.Gateway
