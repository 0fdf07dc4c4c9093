import LearnApue.Gateway.HttpRoute
import LearnApue.Gateway.SnapshotJson

set_option autoImplicit false
set_option maxRecDepth 2048

/-!
# Gateway: the body of `GET /v1/channels` (`http_server.c`)

The text of a snapshot that the gateway can show has at most 1402 bytes, so that the
list of all channels fits the body of a response (`channelsResponse_fits`), in every run
of the request (`gwHttpRoute_channels_run`).
-/

namespace LearnApue.Gateway

open LearnApue.Foundation LearnApue.Foundation.BoundedWriter

/-! ## What is written -/

/-- The text of the body. -/
def channelsText (snapshots : List GwChannelSnapshot) : Bytes :=
  ascii "\x7b\"channels\":[" ++ Json.joined (snapshots.map snapshotText) ++ ascii "]\x7d\n"

/-- The writer after all the calls of `json_append`. -/
def channelsWriter (snapshots : List GwChannelSnapshot) : BoundedWriter :=
  bodyWriter
    |> jsonAppend (ascii "\x7b\"channels\":[")
    |> jsonChannels true snapshots
    |> jsonAppend (ascii "]\x7d\n")

section Writes

theorem jsonChannels_rest_writes (snapshots : List GwChannelSnapshot) :
    Writes (snapshots.flatMap fun snapshot => Json.comma :: snapshotText snapshot)
      (jsonChannels false snapshots) := by
  induction snapshots with
  | nil => exact writes_nothing
  | cons snapshot rest ih =>
    have hsnapshot := (jsonAppend_writes (ascii ",")).andThen (jsonSnapshot_writes snapshot)
    exact hsnapshot.andThen ih

theorem jsonChannels_writes (snapshots : List GwChannelSnapshot) :
    Writes (Json.joined (snapshots.map snapshotText)) (jsonChannels true snapshots) := by
  cases snapshots with
  | nil => exact writes_nothing
  | cons snapshot rest =>
    have h := (jsonSnapshot_writes snapshot).andThen (jsonChannels_rest_writes rest)
    refine h.of_eq ?_
    rw [List.map_cons, Json.joined_cons, List.flatMap_map]

theorem channelsWriter_eq {snapshots : List GwChannelSnapshot}
    (h : (channelsText snapshots).length < gwHttpBodyCap) :
    (channelsWriter snapshots).failed = false ∧
      (channelsWriter snapshots).data = channelsText snapshots ∧
      (channelsWriter snapshots).length = (channelsText snapshots).length := by
  have hwrites := jsonAppend_writes (ascii "\x7b\"channels\":[")
    |>.andThen (jsonChannels_writes snapshots)
    |>.andThen (jsonAppend_writes (ascii "]\x7d\n"))
  have hcap : 0 < gwHttpBodyCap := by decide
  obtain ⟨hfailed, hwritten⟩ := hwrites.start hcap
  have hok : (channelsWriter snapshots).failed = false := by
    rw [← Bool.not_eq_true]
    exact fun hfull => absurd h (Nat.not_lt.mpr (hfailed.mp hfull))
  exact ⟨hok, hwritten hok⟩

/-- A writer that has not failed makes the response. -/
theorem channelsResponse_eq {snapshots : List GwChannelSnapshot}
    (h : (channelsWriter snapshots).failed = false) :
    channelsResponse snapshots =
      (.ok (), { routeResponse with
        body := (channelsWriter snapshots).data
        bodyLength := (channelsWriter snapshots).length }) := by
  change finishResponse routeResponse (channelsWriter snapshots) = _
  rw [finishResponse, h]
  rfl

end Writes

/-! ## The longest snapshot -/

/-- The event names that `gw_channel_snapshot_init` and the supervisor write. -/
def eventNames : List Bytes :=
  [ascii "initialized", ascii "start", ascii "worker_started", ascii "progress", ascii "stable",
    ascii "backoff_elapsed", ascii "stop_requested"] ++
    [WorkerAttemptOutcome.cleanExit, .workerFailure, .startupTimeout, .progressTimeout,
      .stopRequested, .internalError, .pending].map attemptEventString

/-- A number that is finite in the range of `double`, or not finite. -/
def CDouble.Representable : CDouble → Prop
  | .finite value => value.magnitude ≤ dblMax
  | .infinite _ | .nan => True

/-- What a snapshot of the gateway can hold: an accepted id, an event name, and values in the
ranges of their types. -/
structure GwChannelSnapshot.Listable (snapshot : GwChannelSnapshot) : Prop where
  channelId : validIdentifier snapshot.channelId.bytes = true
  lastEvent : snapshot.lastEvent.bytes ∈ eventNames
  integers : ∀ i ∈ [snapshot.processPid, snapshot.lastExitCode, snapshot.backoffSec],
    i.natAbs ≤ 2 ^ 31
  consecutiveFailures : snapshot.consecutiveFailures < 2 ^ 32
  counters : ∀ n ∈ [snapshot.totalRestarts, snapshot.configurationGeneration,
    snapshot.progress.frame, snapshot.progress.dropFrames], n < 2 ^ 64
  outTimeUs : snapshot.progress.outTimeUs.natAbs ≤ 2 ^ 63
  fps : snapshot.progress.fps.Representable
  speed : snapshot.progress.speed.Representable

section Length

theorem jsonCharacter_length (b : Byte) : (jsonCharacter b).length ≤ 6 := by
  have hall : ∀ n < 256, (jsonCharacter (UInt8.ofNat n)).length ≤ 6 := by decide +kernel
  have hb := hall b.toNat b.toNat_lt
  rwa [UInt8.ofNat_toNat] at hb

theorem stringText_length (value : Bytes) : (stringText value).length ≤ 6 * value.length + 2 := by
  have hvalue : (value.flatMap jsonCharacter).length ≤ 6 * value.length := by
    induction value with
    | nil => simp
    | cons b rest ih =>
      have hb := jsonCharacter_length b
      rw [List.flatMap_cons, List.length_append, List.length_cons]
      omega
  simp only [stringText, List.length_append, List.length_cons, List.length_nil]
  omega

/-- A string without escapes. -/
theorem stringText_plain {value : Bytes} (h : value.all Json.plainByte = true) :
    (stringText value).length = value.length + 2 := by
  have hall : ∀ n < 256, Json.plainByte (UInt8.ofNat n) = true →
      jsonCharacter (UInt8.ofNat n) = [UInt8.ofNat n] := by decide +kernel
  have hvalue : value.flatMap jsonCharacter = value := by
    induction value with
    | nil => rfl
    | cons b rest ih =>
      simp only [List.all_cons, Bool.and_eq_true] at h
      have hb := hall b.toNat b.toNat_lt
      rw [UInt8.ofNat_toNat] at hb
      rw [List.flatMap_cons, hb h.1, ih h.2]
      rfl
  simp [stringText, hvalue]

theorem validIdentifier_plain {value : Bytes} (h : validIdentifier value = true) :
    value.all Json.plainByte = true := by
  have hall : ∀ n < 256, (isAlnum (UInt8.ofNat n) || UInt8.ofNat n == byte '_' ||
      UInt8.ofNat n == byte '-') = true → Json.plainByte (UInt8.ofNat n) = true := by decide +kernel
  simp only [validIdentifier, Bool.and_eq_true, List.all_eq_true] at h
  rw [List.all_eq_true]
  intro b hb
  have hplain := hall b.toNat b.toNat_lt
  rw [UInt8.ofNat_toNat] at hplain
  exact hplain (h.2 b hb)

theorem doubleText_length {value : CDouble} (h : value.Representable) :
    (doubleText value).length ≤ 314 := by
  have hnull : (ascii "null").length ≤ 314 := by decide
  cases value with
  | finite value => exact decimalThousandths_length h
  | infinite negative => exact hnull
  | nan => exact hnull

theorem objectText_length {members : List (Bytes × Bytes)} (hsome : members ≠ []) :
    (objectText members).length =
      1 + (members.map fun member => member.1.length + member.2.length + 4).sum := by
  have hjoined := @Json.joined_length (members.map memberText) (by simpa using hsome)
  have hmembers : (members.map memberText).map (fun text => text.length + 1) =
      members.map fun member => member.1.length + member.2.length + 4 := by
    rw [List.map_map]
    refine List.map_congr_left fun member _ => ?_
    simp only [Function.comp_apply, memberText, List.length_cons, List.length_append,
      List.length_nil]
    omega
  rw [hmembers] at hjoined
  simp only [objectText, List.length_cons, List.length_append, List.length_nil]
  omega

theorem counter_length {n : Nat} (h : n < 2 ^ 64) : (decimalNat n).length ≤ 20 :=
  decimalNat_length_le (by decide) (by omega)

theorem integer_length {i : Int} (h : i.natAbs ≤ 2 ^ 31) : (decimalInt i).length ≤ 11 :=
  decimalInt_length_le (by decide) (by omega)

variable {snapshot : GwChannelSnapshot}

theorem progressText_length (h : snapshot.Listable) :
    (progressText snapshot.progress).length ≤ 1045 := by
  have hframe := counter_length (h.counters snapshot.progress.frame (by simp))
  have hdrop := counter_length (h.counters snapshot.progress.dropFrames (by simp))
  have htime : (decimalInt snapshot.progress.outTimeUs).length ≤ 20 :=
    decimalInt_length_le (by decide) (Nat.lt_of_le_of_lt h.outTimeUs (by decide))
  have hfps := doubleText_length h.fps
  have hspeed := doubleText_length h.speed
  have hbitrate := stringText_length snapshot.progress.bitrate.bytes
  have hbitrateFits : snapshot.progress.bitrate.bytes.length < 32 := snapshot.progress.bitrate.fits
  have hstatus := stringText_length snapshot.progress.status.bytes
  have hstatusFits : snapshot.progress.status.bytes.length < 16 := snapshot.progress.status.fits
  rw [progressText, objectText_length (by simp)]
  simp only [List.map_cons, List.map_nil, List.sum_cons, List.sum_nil, ascii, String.reduceToList,
    List.length_cons, List.length_nil]
  omega

theorem stateText_length (state : GwChannelState) :
    (stringText (gwChannelStateString state)).length ≤ 10 := by
  cases state <;> decide

theorem kindText_length (kind : GwChannelProcessKind) :
    (stringText (gwChannelProcessKindString kind)).length ≤ 8 := by
  cases kind <;> decide

theorem eventText_length {event : Bytes} (h : event ∈ eventNames) :
    (stringText event).length ≤ 18 := by
  have hall : ∀ name ∈ eventNames, name.all Json.plainByte = true ∧ name.length ≤ 16 := by
    decide +kernel
  obtain ⟨hplain, hlength⟩ := hall event h
  rw [stringText_plain hplain]
  omega

theorem snapshotText_length (h : snapshot.Listable) : (snapshotText snapshot).length ≤ 1402 := by
  have hid := stringText_plain (validIdentifier_plain h.channelId)
  have hidFits : snapshot.channelId.bytes.length < 65 := snapshot.channelId.fits
  have hstate := stateText_length snapshot.state
  have hevent := eventText_length h.lastEvent
  have hkind := kindText_length snapshot.processKind
  have hpid := integer_length (h.integers snapshot.processPid (by simp))
  have hcode := integer_length (h.integers snapshot.lastExitCode (by simp))
  have hbackoff := integer_length (h.integers snapshot.backoffSec (by simp))
  have hfailures : (decimalNat snapshot.consecutiveFailures).length ≤ 10 :=
    decimalNat_length_le (by decide) (Nat.lt_trans h.consecutiveFailures (by decide))
  have hrestarts := counter_length (h.counters snapshot.totalRestarts (by simp))
  have hgeneration := counter_length (h.counters snapshot.configurationGeneration (by simp))
  have hnull : (ascii "null").length = 4 := rfl
  have hexit : (if snapshot.hasExitCode then decimalInt snapshot.lastExitCode
      else ascii "null").length ≤ 11 := by
    split <;> omega
  have hprogress : (if snapshot.hasProgress then progressText snapshot.progress
      else ascii "null").length ≤ 1045 := by
    have hrecord := progressText_length h
    split <;> omega
  rw [snapshotText, objectText_length (by simp)]
  simp only [List.map_cons, List.map_nil, List.sum_cons, List.sum_nil]
  rw [objectText_length (by simp)]
  simp only [List.map_cons, List.map_nil, List.sum_cons, List.sum_nil, ascii, String.reduceToList,
    List.length_cons, List.length_nil] at hexit hprogress ⊢
  omega

theorem channelsText_length {snapshots : List GwChannelSnapshot}
    (hcount : snapshots.length ≤ gwMaxChannels) (h : ∀ snapshot ∈ snapshots, snapshot.Listable) :
    (channelsText snapshots).length < gwHttpBodyCap := by
  have hopening : (ascii "\x7b\"channels\":[").length = 13 := by decide
  have hclosing : (ascii "]\x7d\n").length = 3 := by decide
  have hjoined : (Json.joined (snapshots.map snapshotText)).length ≤ snapshots.length * 1403 := by
    by_cases hsome : snapshots = []
    · rw [hsome]
      exact Nat.zero_le _
    have hlength := @Json.joined_length (snapshots.map snapshotText) (by simpa using hsome)
    have hsum := List.sum_le_card_nsmul
      ((snapshots.map snapshotText).map fun text => text.length + 1) 1403 (by
        intro length hlength
        rw [List.map_map] at hlength
        obtain ⟨snapshot, hsnapshot, rfl⟩ := List.mem_map.mp hlength
        exact Nat.succ_le_succ (snapshotText_length (h snapshot hsnapshot)))
    rw [List.length_map, List.length_map, smul_eq_mul] at hsum
    omega
  have hmax : snapshots.length * 1403 ≤ 64 * 1403 := Nat.mul_le_mul_right _ hcount
  have hcap : gwHttpBodyCap = 131072 := rfl
  rw [channelsText, List.length_append, List.length_append, hopening, hclosing, hcap]
  omega

end Length

/-! ## The listing of a manager -/

section Listing

variable {sampled : Fin gwMaxChannels → GwProcessMetricsSnapshot} {manager : GwChannelManager}

/-- What `list_snapshots` shows of a slot. -/
def shownSnapshot (sampled : Fin gwMaxChannels → GwProcessMetricsSnapshot)
    (manager : GwChannelManager) (slot : Fin gwMaxChannels) : GwChannelSnapshot :=
  attachWorkerMetrics (sampled slot) (manager.entries slot).snapshot

theorem copySnapshots_ok {capacity : Nat} (rest : List (Fin gwMaxChannels))
    (copied : List GwChannelSnapshot) (hroom : copied.length + rest.length ≤ capacity) :
    copySnapshots sampled capacity manager rest copied =
      .ok (copied ++ (rest.filter fun slot => (manager.entries slot).occupied).map
        (shownSnapshot sampled manager)) := by
  induction rest generalizing copied with
  | nil => simp [copySnapshots]
  | cons slot rest ih =>
    rw [List.length_cons] at hroom
    cases hoccupied : (manager.entries slot).occupied with
    | false =>
      rw [copySnapshots, hoccupied, List.filter_cons_of_neg (by simp [hoccupied])]
      exact ih copied (by omega)
    | true =>
      have hlonger : (copied ++ [shownSnapshot sampled manager slot]).length + rest.length ≤
          capacity := by
        rw [List.length_append, List.length_singleton]
        omega
      have hrest := ih _ hlonger
      rw [List.append_assoc] at hrest
      rw [copySnapshots, hoccupied, if_neg (by decide), if_neg (by omega),
        List.filter_cons_of_pos (by exact hoccupied), List.map_cons]
      exact hrest

/-- An array of `GW_MAX_CHANNELS` snapshots has room for every channel. -/
theorem gwChannelManagerListSnapshots_ok :
    gwChannelManagerListSnapshots sampled gwMaxChannels manager =
      .ok ((slots.filter fun slot => (manager.entries slot).occupied).map
        (shownSnapshot sampled manager)) :=
  copySnapshots_ok slots [] (by decide)

theorem GwChannelSnapshot.Listable.shown {snapshot : GwChannelSnapshot} (h : snapshot.Listable)
    (metrics : GwProcessMetricsSnapshot) : (attachWorkerMetrics metrics snapshot).Listable := by
  unfold attachWorkerMetrics
  split <;> exact ⟨h.channelId, h.lastEvent, h.integers, h.consecutiveFailures, h.counters,
    h.outTimeUs, h.fps, h.speed⟩

end Listing

/-! ## The response -/

/-- A GET on `/v1/channels` lists the channels. -/
theorem gwHttpRoute_channels (answers : RouteAnswers) (recording : GwRecordingConfig) :
    gwHttpRoute answers recording (ascii "GET") (ascii "/v1/channels") =
      Route.channels.serve answers recording := by
  have hrequest := @gwHttpRoute_route answers recording (ascii "GET") (ascii "/v1/channels")
    (by decide) .channels trivial (by decide)
  rw [hrequest, requestRoute, if_neg (not_not_intro (by decide))]

/-- Whatever the other threads do, the request succeeds while every snapshot of the manager is one
that the gateway can show. -/
theorem gwHttpRoute_channels_run {stoppable : Prop} {created : Option Errno → Prop}
    {answers : RouteAnswers} {recording : GwRecordingConfig} {manager later : GwChannelManager}
    {result : HttpResult}
    (hlistable : ∀ before, (managerSetting stoppable created).Later manager before →
      ∀ slot, (before.entries slot).occupied = true → (before.entries slot).snapshot.Listable)
    (hrun : Section.Runs (managerSetting stoppable created)
      (gwHttpRoute answers recording (ascii "GET") (ascii "/v1/channels")) manager result later) :
    ∃ body : Bytes, body.length < gwHttpBodyCap ∧
      result = (.ok (), { routeResponse with body := body, bodyLength := body.length }) := by
  rw [gwHttpRoute_channels] at hrun
  obtain ⟨before, hbefore, hrun⟩ := Section.runs_read_bind hrun
  rw [gwChannelManagerListSnapshots_ok] at hrun
  have hcount : ((slots.filter fun slot => (before.entries slot).occupied).map
      (shownSnapshot answers.sampled before)).length ≤ gwMaxChannels := by
    rw [List.length_map]
    exact List.length_filter_le _ slots
  have hshown : ∀ snapshot ∈ (slots.filter fun slot => (before.entries slot).occupied).map
      (shownSnapshot answers.sampled before), snapshot.Listable := by
    intro snapshot hsnapshot
    obtain ⟨slot, hslot, rfl⟩ := List.mem_map.mp hsnapshot
    have hoccupied : (before.entries slot).occupied = true := by
      simpa using (List.mem_filter.mp hslot).2
    exact (hlistable before hbefore slot hoccupied).shown _
  have hfits := channelsText_length hcount hshown
  obtain ⟨hok, hdata, hlength⟩ := channelsWriter_eq hfits
  cases hrun
  refine ⟨_, hfits, ?_⟩
  rw [channelsResponse_eq hok, hlength, hdata]

/-- The list of all channels fits the body of a response: no text is cut, and the request
succeeds. -/
theorem channelsResponse_fits {snapshots : List GwChannelSnapshot}
    (hcount : snapshots.length ≤ gwMaxChannels) (h : ∀ snapshot ∈ snapshots, snapshot.Listable) :
    (channelsWriter snapshots).failed = false ∧
      (channelsWriter snapshots).length = (channelsWriter snapshots).data.length ∧
      (channelsWriter snapshots).length < gwHttpBodyCap ∧
      channelsResponse snapshots =
        (.ok (), { routeResponse with
          body := (channelsWriter snapshots).data
          bodyLength := (channelsWriter snapshots).length }) ∧
      ∀ (answers : RouteAnswers) (recording : GwRecordingConfig) (created : Option Errno)
        (manager : GwChannelManager),
        gwChannelManagerListSnapshots answers.sampled gwMaxChannels manager = .ok snapshots →
        (gwHttpRoute answers recording (ascii "GET") (ascii "/v1/channels")).evaluate created
          manager = some (channelsResponse snapshots, manager) := by
  have hfits := channelsText_length hcount h
  obtain ⟨hok, hdata, hlength⟩ := channelsWriter_eq hfits
  refine ⟨hok, by rw [hdata, hlength], hlength ▸ hfits, channelsResponse_eq hok, ?_⟩
  intro answers recording created manager hlisted
  rw [gwHttpRoute_channels]
  unfold Route.serve
  rw [Section.evaluate_read_bind, hlisted]
  rfl

/-- The longest snapshot of a channel that was initialised. -/
def widestSnapshot : GwChannelSnapshot :=
  { gwChannelSnapshotInit (watchedChannel (ascii "front")) with
      processKind := .worker
      processPid := -(2 ^ 31)
      hasExitCode := true
      lastExitCode := -(2 ^ 31)
      consecutiveFailures := 2 ^ 32 - 1
      totalRestarts := 2 ^ 64 - 1
      configurationGeneration := 2 ^ 64 - 1
      backoffSec := -(2 ^ 31)
      hasProgress := true
      progress :=
        { frame := 2 ^ 64 - 1
          fps := .finite ⟨true, dblMax⟩
          bitrate := .truncate bitrateCap bitrateCap_pos (List.replicate 40 255)
          outTimeUs := -(2 ^ 63)
          dropFrames := 2 ^ 64 - 1
          speed := .finite ⟨true, dblMax⟩
          status := .truncate statusCap statusCap_pos (List.replicate 40 7) } }

theorem channelsResponse_fits_widest :
    ∃ response, channelsResponse (List.replicate gwMaxChannels widestSnapshot) = (.ok (), response) := by
  have hlistable : widestSnapshot.Listable :=
    { channelId := by decide
      lastEvent := by decide
      integers := by decide
      consecutiveFailures := by decide
      counters := by decide
      outTimeUs := by decide
      fps := le_refl _
      speed := le_refl _ }
  have hfits := channelsResponse_fits (List.length_replicate.le) fun snapshot hsnapshot =>
    List.eq_of_mem_replicate hsnapshot ▸ hlistable
  exact ⟨_, hfits.2.2.2.1⟩

end LearnApue.Gateway
