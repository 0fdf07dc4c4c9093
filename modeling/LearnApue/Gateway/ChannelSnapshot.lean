import LearnApue.Gateway.ChannelState
import LearnApue.Gateway.ProgressParser

set_option autoImplicit false

/-!
# Gateway: channel status snapshots (`channel_snapshot.h`, `channel_snapshot.c`)

The copy of a channel's state that observers get, with the six functions that
update parts of it.
-/

namespace LearnApue.Gateway

open LearnApue.Foundation

/-- `GW_EVENT_CAP`. -/
def gwEventCap : Nat := 64

theorem gwEventCap_pos : 0 < gwEventCap := by decide

/-- `gw_channel_process_kind`. -/
inductive GwChannelProcessKind where
  | none
  | worker
  deriving DecidableEq, Repr

/-- `gw_process_metrics_snapshot`. -/
structure GwProcessMetricsSnapshot where
  pid : Int
  available : Bool
  cpuAvailable : Bool
  cpuPercent : CDouble
  rssKib : Int
  fdCount : Nat
  deriving DecidableEq

/-- The zeroed metrics of no process. -/
def GwProcessMetricsSnapshot.cleared : GwProcessMetricsSnapshot :=
  ⟨-1, false, false, .zero, 0, 0⟩

/-- `gw_channel_snapshot`. -/
structure GwChannelSnapshot where
  channelId : Text gwIdCap
  state : GwChannelState
  lastEvent : Text gwEventCap
  processKind : GwChannelProcessKind
  processPid : Int
  hasExitCode : Bool
  lastExitCode : Int
  consecutiveFailures : Nat
  totalRestarts : Nat
  configurationGeneration : Nat
  backoffSec : Int
  hasProgress : Bool
  progress : GwWorkerProgress
  workerMetrics : GwProcessMetricsSnapshot
  deriving DecidableEq

/-- `set_event`. -/
def setEvent (snapshot : GwChannelSnapshot) (event : Bytes) : GwChannelSnapshot :=
  { snapshot with lastEvent := .truncate gwEventCap gwEventCap_pos event }

/-- `gw_channel_snapshot_init`. -/
def gwChannelSnapshotInit (channel : GwChannelConfig) : GwChannelSnapshot :=
  setEvent
    { channelId := channel.id
      state := if channel.enabled then .stopped else .disabled
      lastEvent := .truncate gwEventCap gwEventCap_pos []
      processKind := .none
      processPid := -1
      hasExitCode := false
      lastExitCode := -1
      consecutiveFailures := 0
      totalRestarts := 0
      configurationGeneration := 0
      backoffSec := 0
      hasProgress := false
      progress := .zero
      workerMetrics := .cleared }
    (ascii "initialized")

/-- `gw_channel_snapshot_update_runtime`. -/
def gwChannelSnapshotUpdateRuntime (snapshot : GwChannelSnapshot) (runtime : GwChannelRuntime)
    (event : Bytes) : GwChannelSnapshot :=
  setEvent
    { snapshot with
        state := runtime.state
        consecutiveFailures := runtime.consecutiveFailures
        totalRestarts := runtime.totalRestarts
        backoffSec := runtime.backoffSec }
    event

/-- `gw_channel_snapshot_set_process`. -/
def gwChannelSnapshotSetProcess (snapshot : GwChannelSnapshot) (kind : GwChannelProcessKind)
    (pid : Int) (event : Bytes) : GwChannelSnapshot :=
  let fresh :=
    if kind = .worker ∧ (snapshot.processKind ≠ kind ∨ snapshot.processPid ≠ pid) then
      { snapshot with progress := .zero, hasProgress := false }
    else snapshot
  setEvent
    { fresh with
        processKind := kind
        processPid := pid
        hasExitCode := false
        lastExitCode := -1 }
    event

/-- `gw_channel_snapshot_clear_process`. -/
def gwChannelSnapshotClearProcess (snapshot : GwChannelSnapshot) (exitCode : Int)
    (event : Bytes) : GwChannelSnapshot :=
  setEvent
    { snapshot with
        processKind := .none
        processPid := -1
        hasExitCode := true
        lastExitCode := exitCode }
    event

/-- `gw_channel_snapshot_clear_live_data`. -/
def gwChannelSnapshotClearLiveData (snapshot : GwChannelSnapshot) : GwChannelSnapshot :=
  { snapshot with hasProgress := false, progress := .zero, workerMetrics := .cleared }

/-- `gw_channel_snapshot_set_progress`. -/
def gwChannelSnapshotSetProgress (snapshot : GwChannelSnapshot) (progress : GwWorkerProgress)
    (event : Bytes) : GwChannelSnapshot :=
  setEvent { snapshot with progress := progress, hasProgress := true } event

/-- `gw_channel_process_kind_string`. -/
def gwChannelProcessKindString : GwChannelProcessKind → Bytes
  | .none => ascii "NONE"
  | .worker => ascii "WORKER"

/-! ## A snapshot and the runtime it shows -/

/-- The runtime values a snapshot shows. -/
def GwChannelSnapshot.runtime (snapshot : GwChannelSnapshot) : GwChannelRuntime :=
  ⟨snapshot.state, snapshot.consecutiveFailures, snapshot.totalRestarts, snapshot.backoffSec⟩

section Shows

variable (snapshot : GwChannelSnapshot) (runtime : GwChannelRuntime) (event : Bytes)

@[simp] theorem updateRuntime_runtime :
    (gwChannelSnapshotUpdateRuntime snapshot runtime event).runtime = runtime := rfl

@[simp] theorem setProcess_runtime (kind : GwChannelProcessKind) (pid : Int) :
    (gwChannelSnapshotSetProcess snapshot kind pid event).runtime = snapshot.runtime := by
  unfold gwChannelSnapshotSetProcess
  split <;> rfl

@[simp] theorem clearProcess_runtime (exitCode : Int) :
    (gwChannelSnapshotClearProcess snapshot exitCode event).runtime = snapshot.runtime := rfl

@[simp] theorem clearLiveData_runtime :
    (gwChannelSnapshotClearLiveData snapshot).runtime = snapshot.runtime := rfl

@[simp] theorem setProgress_runtime (progress : GwWorkerProgress) :
    (gwChannelSnapshotSetProgress snapshot progress event).runtime = snapshot.runtime := rfl

/-- A worker that was not shown before has no progress. -/
theorem setProcess_worker_hasProgress (pid : Int) (h : snapshot.processKind = .none) :
    (gwChannelSnapshotSetProcess snapshot .worker pid event).hasProgress = false := by
  unfold gwChannelSnapshotSetProcess
  rw [if_pos ⟨rfl, Or.inl (by rw [h]; decide)⟩]
  rfl

end Shows

end LearnApue.Gateway
