import LearnApue.Foundation.Decimal
import LearnApue.Gateway.Config

set_option autoImplicit false

/-!
# Gateway: the worker's argument vector (`pipeline_builder.c`)

`gw_pipeline_build` appends one `strdup`ed argument after another; whether each
allocation succeeds is a parameter.  What it reads of the configuration is the
channel and `publish_base_url`, nothing else.
-/

namespace LearnApue.Gateway

open LearnApue.Foundation

/-- `GW_PIPELINE_MAX_ARGS`. -/
def gwPipelineMaxArgs : Nat := 40

/-- Whether the `n`-th `strdup` of a call succeeds. -/
abbrev Allocator : Type := Nat → Bool

/-- `append_argument`; all earlier allocations of the call succeeded, so that
`count` numbers this one. -/
def appendArgument (allocator : Allocator) (arguments : List Bytes) (value : Bytes) :
    Except GwError (List Bytes) :=
  if arguments.length ≥ gwPipelineMaxArgs then
    .error (gwErrorSet .errOverflow (ascii "FFmpeg argument limit exceeded"))
  else if !allocator arguments.length then
    .error (gwErrorSet .errNoMemory (ascii "cannot allocate FFmpeg argument"))
  else .ok (arguments ++ [value])

/-- `append_pair`. -/
def appendPair (allocator : Allocator) (option value : Bytes) (arguments : List Bytes) :
    Except GwError (List Bytes) := do
  let arguments ← appendArgument allocator arguments option
  appendArgument allocator arguments value

/-- `append_integer_pair`. -/
def appendIntegerPair (allocator : Allocator) (option : Bytes) (value : Int) (suffix : Bytes)
    (arguments : List Bytes) : Except GwError (List Bytes) :=
  if (decimalInt value ++ suffix).length ≥ 64 then
    .error (gwErrorSet .errOverflow (ascii "cannot format FFmpeg numeric argument"))
  else appendPair allocator option (decimalInt value ++ suffix) arguments

/-- `rga_filter`. -/
def rgaFilter (video : GwVideoConfig) : Bytes :=
  ascii "scale_rkrga=w=" ++ decimalInt video.width ++ ascii ":h=" ++ decimalInt video.height ++
    ascii ":format=nv12"

/-- `output_url`. -/
def outputUrl (publishBaseUrl path : Bytes) : Bytes :=
  publishBaseUrl ++ (if publishBaseUrl.getLast? = some (byte '/') then [] else ascii "/") ++ path

/-- `gw_pipeline_build`. -/
def gwPipelineBuild (allocator : Allocator) (channel : GwChannelConfig)
    (mediamtx : GwMediamtxConfig) (ffmpegBinary : Option Bytes) :
    Except GwError (List Bytes) := do
  if mediamtx.publishBaseUrl.bytes = [] then
    throw (gwErrorSet .errValidation (ascii "MediaMTX publish base URL is empty"))
  let arguments ← appendArgument allocator [] (ffmpegBinary.getD (ascii "ffmpeg"))
  let arguments ← appendArgument allocator arguments (ascii "-nostdin")
  let arguments ← appendArgument allocator arguments (ascii "-hide_banner")
  let arguments ← appendPair allocator (ascii "-loglevel") (ascii "warning") arguments
  let arguments ← appendPair allocator (ascii "-progress") (ascii "pipe:1") arguments
  let arguments ← appendPair allocator (ascii "-stats_period") (ascii "1") arguments
  let arguments ←
    appendPair allocator (ascii "-rtsp_transport") channel.input.transport.bytes arguments
  let arguments ← appendPair allocator (ascii "-hwaccel") (ascii "rkmpp") arguments
  let arguments ← appendPair allocator (ascii "-hwaccel_output_format") (ascii "drm_prime") arguments
  let arguments ← appendPair allocator (ascii "-c:v") channel.video.decoder.bytes arguments
  let arguments ← appendPair allocator (ascii "-i") channel.input.url.bytes arguments
  if (rgaFilter channel.video).length ≥ 160 then
    throw (gwErrorSet .errOverflow (ascii "RGA filter expression is too long"))
  let arguments ← appendPair allocator (ascii "-vf") (rgaFilter channel.video) arguments
  let arguments ← appendPair allocator (ascii "-c:v") channel.video.encoder.bytes arguments
  let arguments ←
    appendIntegerPair allocator (ascii "-b:v") channel.video.bitrateKbps (ascii "k") arguments
  let arguments ← appendIntegerPair allocator (ascii "-r") channel.video.fps [] arguments
  let arguments ← appendIntegerPair allocator (ascii "-g") (channel.video.fps * 2) [] arguments
  let arguments ← appendArgument allocator arguments (ascii "-an")
  let arguments ← appendPair allocator (ascii "-f") (ascii "rtsp") arguments
  let arguments ← appendPair allocator (ascii "-rtsp_transport") (ascii "tcp") arguments
  if (outputUrl mediamtx.publishBaseUrl.bytes channel.output.path.bytes).length ≥ gwUrlCap then
    throw (gwErrorSet .errOverflow (ascii "publish URL is too long"))
  appendArgument allocator arguments
    (outputUrl mediamtx.publishBaseUrl.bytes channel.output.path.bytes)

/-! ## What a build depends on -/

/-- Two channels that differ in the id or the enabled flag alone, with the same
publish URL, are built alike. -/
theorem gwPipelineBuild_congr (allocator : Allocator) {first second : GwChannelConfig}
    {mediamtx mediamtx' : GwMediamtxConfig} (ffmpegBinary : Option Bytes)
    (hinput : first.input = second.input) (hvideo : first.video = second.video)
    (houtput : first.output = second.output)
    (hbase : mediamtx.publishBaseUrl = mediamtx'.publishBaseUrl) :
    gwPipelineBuild allocator first mediamtx ffmpegBinary =
      gwPipelineBuild allocator second mediamtx' ffmpegBinary := by
  unfold gwPipelineBuild
  rw [hinput, hvideo, houtput, hbase]

/-! ## Builds of accepted channels -/

/-- The argument vector of a channel's worker. -/
def pipelineArguments (channel : GwChannelConfig) (mediamtx : GwMediamtxConfig) (binary : Bytes) :
    List Bytes :=
  [binary, ascii "-nostdin", ascii "-hide_banner", ascii "-loglevel", ascii "warning",
    ascii "-progress", ascii "pipe:1", ascii "-stats_period", ascii "1",
    ascii "-rtsp_transport", channel.input.transport.bytes, ascii "-hwaccel", ascii "rkmpp",
    ascii "-hwaccel_output_format", ascii "drm_prime", ascii "-c:v", channel.video.decoder.bytes,
    ascii "-i", channel.input.url.bytes, ascii "-vf", rgaFilter channel.video,
    ascii "-c:v", channel.video.encoder.bytes,
    ascii "-b:v", decimalInt channel.video.bitrateKbps ++ ascii "k",
    ascii "-r", decimalInt channel.video.fps, ascii "-g", decimalInt (channel.video.fps * 2),
    ascii "-an", ascii "-f", ascii "rtsp", ascii "-rtsp_transport", ascii "tcp",
    outputUrl mediamtx.publishBaseUrl.bytes channel.output.path.bytes]

section Accepted

variable {allocator : Allocator} {arguments : List Bytes} {channel : GwChannelConfig}
  {config : GwConfig}

theorem appendArgument_ok (halloc : ∀ n, allocator n = true)
    (hroom : arguments.length < gwPipelineMaxArgs) (value : Bytes) :
    appendArgument allocator arguments value = .ok (arguments ++ [value]) := by
  rw [appendArgument, if_neg (by omega), halloc, if_neg (by simp)]

theorem appendPair_ok (halloc : ∀ n, allocator n = true)
    (hroom : arguments.length + 1 < gwPipelineMaxArgs) (option value : Bytes) :
    appendPair allocator option value arguments = .ok (arguments ++ [option, value]) := by
  have hoption : (arguments ++ [option]).length < gwPipelineMaxArgs := by
    rw [List.length_append]
    exact hroom
  rw [appendPair, appendArgument_ok halloc (by omega)]
  change appendArgument allocator (arguments ++ [option]) value = _
  rw [appendArgument_ok halloc hoption, List.append_assoc]
  rfl

theorem appendIntegerPair_ok (halloc : ∀ n, allocator n = true)
    (hroom : arguments.length + 1 < gwPipelineMaxArgs) {value : Int} (hvalue : 0 ≤ value)
    (hlimit : value < 10 ^ 6) {suffix : Bytes} (hsuffix : suffix.length ≤ 1) (option : Bytes) :
    appendIntegerPair allocator option value suffix arguments =
      .ok (arguments ++ [option, decimalInt value ++ suffix]) := by
  have hdigits := decimalInt_length_le_of_nonneg (by decide) hvalue hlimit
  have hfits : (decimalInt value ++ suffix).length < 64 := by
    rw [List.length_append]
    omega
  rw [appendIntegerPair, if_neg (by omega), appendPair_ok halloc hroom]

/-- The filter of an accepted channel fits its buffer. -/
theorem rgaFilter_length {video : GwVideoConfig} (h : videoInRange video = true) :
    (rgaFilter video).length < 160 := by
  simp only [videoInRange, Bool.and_eq_true, decide_eq_true_eq] at h
  have hwidth : (decimalInt video.width).length ≤ 4 :=
    decimalInt_length_le_of_nonneg (by decide) (by omega) (by omega)
  have hheight : (decimalInt video.height).length ≤ 4 :=
    decimalInt_length_le_of_nonneg (by decide) (by omega) (by omega)
  have hfirst : (ascii "scale_rkrga=w=").length = 14 := by decide
  have hsecond : (ascii ":h=").length = 3 := by decide
  have hthird : (ascii ":format=nv12").length = 12 := by decide
  simp only [rgaFilter, List.length_append]
  omega

/-- What a build of an accepted channel comes to: only the URL can be too long. -/
theorem gwPipelineBuild_accepted (haccepted : ChannelAccepted channel)
    {mediamtx : GwMediamtxConfig} (hbase : mediamtx.publishBaseUrl.bytes ≠ [])
    (halloc : ∀ n, allocator n = true) (binary : Bytes) :
    gwPipelineBuild allocator channel mediamtx (some binary) =
      if (outputUrl mediamtx.publishBaseUrl.bytes channel.output.path.bytes).length < gwUrlCap then
        .ok (pipelineArguments channel mediamtx binary)
      else .error (gwErrorSet .errOverflow (ascii "publish URL is too long")) := by
  have hvideo := haccepted.video
  simp only [videoInRange, Bool.and_eq_true, decide_eq_true_eq] at hvideo
  have hfilter := rgaFilter_length haccepted.video
  -- the pairs fill 34 of the 40 places, whatever the channel
  simp (disch := first
      | exact halloc
      | (simp only [List.length_append, List.length_cons, List.length_nil, gwPipelineMaxArgs]; omega)
      | omega
      | decide) only [gwPipelineBuild, if_neg hbase, appendArgument_ok, appendPair_ok,
    appendIntegerPair_ok, bind, Except.bind, Option.getD_some]
  rw [if_neg (by omega)]
  by_cases hfits :
      (outputUrl mediamtx.publishBaseUrl.bytes channel.output.path.bytes).length < gwUrlCap
  · rw [if_pos hfits, if_neg (by omega)]
    simp only [List.nil_append, List.cons_append, List.append_nil, pipelineArguments]
  · rw [if_neg hfits, if_pos (by omega)]
    rfl

/-- A validated channel is built unless its URL is too long; no other limit is
reached. -/
theorem gwPipelineBuild_of_validated (hvalid : gwConfigValidate config = .ok ())
    (hmem : channel ∈ config.channels) (halloc : ∀ n, allocator n = true) (binary : Bytes) :
    gwPipelineBuild allocator channel config.mediamtx (some binary) =
      if (outputUrl config.mediamtx.publishBaseUrl.bytes channel.output.path.bytes).length <
          gwUrlCap then
        .ok (pipelineArguments channel config.mediamtx binary)
      else .error (gwErrorSet .errOverflow (ascii "publish URL is too long")) := by
  obtain ⟨-, hbase, haccepted, -⟩ := gwConfigValidate_accepted hvalid
  refine gwPipelineBuild_accepted (haccepted channel hmem) ?_ halloc binary
  intro hempty
  rw [hempty] at hbase
  cases hbase

theorem length_le_outputUrl (publishBaseUrl path : Bytes) :
    publishBaseUrl.length + path.length ≤ (outputUrl publishBaseUrl path).length := by
  simp only [outputUrl, List.length_append]
  omega

theorem gwPipelineBuild_of_validated_watched :
    gwPipelineBuild (fun _ => true) (watchedChannel (ascii "front"))
        (configOf [watchedChannel (ascii "front")]).mediamtx (some (ascii "ffmpeg")) =
      .ok (pipelineArguments (watchedChannel (ascii "front"))
        (configOf [watchedChannel (ascii "front")]).mediamtx (ascii "ffmpeg")) :=
  (gwPipelineBuild_of_validated watchedFront_valid List.mem_cons_self (fun _ => rfl) _).trans
    (if_pos (by decide +kernel))

end Accepted

/-- An accepted configuration whose base URL fills its buffer. -/
def longBaseConfig : GwConfig :=
  let config := configOf [watchedChannel (ascii "front")]
  { config with
      mediamtx :=
        { config.mediamtx with
            publishBaseUrl := .truncate gwUrlCap gwUrlCap_pos
              (ascii "rtsp://" ++ List.replicate 2040 (byte 'a')) } }

theorem gwPipelineBuild_long_base :
    gwConfigValidate longBaseConfig = .ok () ∧
      watchedChannel (ascii "front") ∈ longBaseConfig.channels ∧
      gwPipelineBuild (fun _ => true) (watchedChannel (ascii "front")) longBaseConfig.mediamtx
          (some (ascii "ffmpeg")) =
        .error (gwErrorSet .errOverflow (ascii "publish URL is too long")) := by
  have hvalid : gwConfigValidate longBaseConfig = .ok () := by decide +kernel
  have hbase : longBaseConfig.mediamtx.publishBaseUrl.bytes.length = 2047 := by decide +kernel
  have hpath : (watchedChannel (ascii "front")).output.path.bytes.length = 5 := by decide
  have hlong := length_le_outputUrl longBaseConfig.mediamtx.publishBaseUrl.bytes
    (watchedChannel (ascii "front")).output.path.bytes
  have hover : ¬ (outputUrl longBaseConfig.mediamtx.publishBaseUrl.bytes
      (watchedChannel (ascii "front")).output.path.bytes).length < gwUrlCap := by
    unfold gwUrlCap
    omega
  exact ⟨hvalid, List.mem_cons_self,
    (gwPipelineBuild_of_validated hvalid List.mem_cons_self (fun _ => rfl) _).trans (if_neg hover)⟩

end LearnApue.Gateway
