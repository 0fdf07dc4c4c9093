import LearnApue.Foundation.Monitor
import LearnApue.Gateway.SupervisorRuns

set_option autoImplicit false

/-!
# Gateway: the channel manager (`channel_manager.h`, `channel_manager.c`)

The slots of the manager, the sections its functions run under `lifecycle_lock`, and
the supervisor threads that run beside them.  Each access to data that a supervisor
thread also touches is a step of its own; what only the lock's holder touches is read
and written in the source's order.

`supervisors` is history: every thread ever announced for a slot, with the number of
times it was joined and what it published.  A thread handle is an index into it, and
`configuredAt` is how long it was when the slot's configuration was installed.  The
metrics sampler is left out but for whether its thread was started.
-/

namespace LearnApue.Gateway

open LearnApue.Foundation

/-! ## Threads -/

/-- Where a supervisor thread is. -/
inductive ThreadPhase where
  /-- `active_threads` counts it, `pthread_create` has not been called -/
  | announced
  /-- `pthread_create` failed, `active_threads` still counts it -/
  | creationFailed
  /-- inside `gw_supervisor_run` -/
  | supervising
  /-- `entry->result` is stored -/
  | returned
  /-- `thread_running` is cleared -/
  | stored
  /-- the counter is decremented and the thread is over -/
  | finished
  /-- never created, and not counted any more -/
  | abandoned
  deriving DecidableEq, Repr

/-- A supervisor thread, with how often it was joined and the snapshots it handed to
`manager_observe`. -/
structure SupervisorThread where
  phase : ThreadPhase
  joins : Nat
  published : List GwChannelSnapshot
  deriving DecidableEq

namespace SupervisorThread

/-- `active_threads` counts the thread. -/
def counted (thread : SupervisorThread) : Bool :=
  match thread.phase with
  | .finished | .abandoned => false
  | _ => true

/-- The thread exists and is not over. -/
def live (thread : SupervisorThread) : Bool :=
  match thread.phase with
  | .supervising | .returned | .stored => true
  | _ => false

/-- `pthread_create` made the thread. -/
def created (thread : SupervisorThread) : Bool :=
  match thread.phase with
  | .supervising | .returned | .stored | .finished => true
  | _ => false

end SupervisorThread

/-! ## Slots -/

/-- `gw_channel_entry`. -/
structure GwChannelEntry where
  occupied : Bool
  thread : Option Nat
  threadStarted : Bool
  threadRunning : Bool
  result : Int
  stopSignal : Int
  generation : Nat
  options : GwSupervisorOptions
  runConfig : GwConfig
  snapshot : GwChannelSnapshot
  supervisors : List SupervisorThread
  configuredAt : Nat

/-- `gw_channel_manager`. -/
structure GwChannelManager where
  config : GwConfig
  callerOptions : GwSupervisorOptions
  stopSignal : Int
  activeThreads : Nat
  metricsThreadStarted : Bool
  entries : Fin gwMaxChannels → GwChannelEntry
  started : Bool
  result : Int

/-- `gw_channel_reload_summary`. -/
structure GwChannelReloadSummary where
  unchanged : Nat
  added : Nat
  removed : Nat
  restarted : Nat
  deriving DecidableEq, Repr

/-- The slots, in the order of the source's loops. -/
def slots : List (Fin gwMaxChannels) := List.finRange gwMaxChannels

/-- `SIGTERM`. -/
def sigterm : Int := 15

/-- `run_config.channels[0]`. -/
def GwChannelEntry.channel (entry : GwChannelEntry) : GwChannelConfig :=
  entry.runConfig.channels.headD channelInit

/-- A thread of the slot changes. -/
def GwChannelEntry.changeThread (entry : GwChannelEntry) (index : Nat)
    (change : SupervisorThread → SupervisorThread) : GwChannelEntry :=
  { entry with supervisors := entry.supervisors.modify index change }

/-- A slot changes. -/
def GwChannelManager.setEntry (manager : GwChannelManager) (slot : Fin gwMaxChannels)
    (entry : GwChannelEntry) : GwChannelManager :=
  { manager with entries := Function.update manager.entries slot entry }

/-! ## Comparing and finding -/

/-- `retry_policy_equal`. -/
def retryPolicyEqual (first second : GwRetryPolicy) : Bool :=
  first.startupTimeoutSec == second.startupTimeoutSec &&
    first.progressTimeoutSec == second.progressTimeoutSec &&
    first.stableRunSec == second.stableRunSec &&
    first.stopTimeoutSec == second.stopTimeoutSec &&
    first.maxRetries == second.maxRetries &&
    first.maxBackoffSec == second.maxBackoffSec

/-- `channel_config_equal`. -/
def channelConfigEqual (first second : GwChannelConfig) : Bool :=
  first.enabled == second.enabled &&
    first.id.bytes == second.id.bytes &&
    first.input.type.bytes == second.input.type.bytes &&
    first.input.url.bytes == second.input.url.bytes &&
    first.input.transport.bytes == second.input.transport.bytes &&
    first.video.decoder.bytes == second.video.decoder.bytes &&
    first.video.width == second.video.width &&
    first.video.height == second.video.height &&
    first.video.encoder.bytes == second.video.encoder.bytes &&
    first.video.bitrateKbps == second.video.bitrateKbps &&
    first.video.fps == second.video.fps &&
    first.output.path.bytes == second.output.path.bytes

/-- `worker_globals_equal`. -/
def workerGlobalsEqual (first second : GwConfig) : Bool :=
  first.mediamtx.publishBaseUrl.bytes == second.mediamtx.publishBaseUrl.bytes &&
    retryPolicyEqual first.defaults second.defaults

/-- `find_enabled_channel`. -/
def findEnabledChannel (config : GwConfig) (id : Bytes) : Option GwChannelConfig :=
  config.channels.find? fun channel => channel.enabled && channel.id.bytes == id

/-- `find_entry`. -/
def findEntry (manager : GwChannelManager) (id : Bytes) : Option (Fin gwMaxChannels) :=
  slots.find? fun slot =>
    (manager.entries slot).occupied && (manager.entries slot).channel.id.bytes == id

/-- `find_free_entry`. -/
def findFreeEntry (manager : GwChannelManager) : Option (Fin gwMaxChannels) :=
  slots.find? fun slot => !(manager.entries slot).occupied

/-! ## Reading the snapshots -/

/-- `attach_worker_metrics`, with what the sampler last stored for the slot. -/
def attachWorkerMetrics (sampled : GwProcessMetricsSnapshot) (snapshot : GwChannelSnapshot) :
    GwChannelSnapshot :=
  if snapshot.processKind = .worker ∧ sampled.pid = snapshot.processPid then
    { snapshot with workerMetrics := sampled }
  else { snapshot with workerMetrics := ⟨snapshot.processPid, false, false, .zero, 0, 0⟩ }

/-- `gw_channel_manager_get_snapshot`, under the read lock. -/
def gwChannelManagerGetSnapshot (sampled : Fin gwMaxChannels → GwProcessMetricsSnapshot)
    (channelId : Bytes) (manager : GwChannelManager) : Except GwError GwChannelSnapshot :=
  let found := slots.find? fun slot =>
    (manager.entries slot).occupied && (manager.entries slot).snapshot.channelId.bytes == channelId
  match found with
  | some slot => .ok (attachWorkerMetrics (sampled slot) (manager.entries slot).snapshot)
  | none =>
      .error (gwErrorSet .errNotFound
        (ascii "channel '" ++ channelId ++ ascii "' is not managed"))

/-- The loop of `gw_channel_manager_list_snapshots`. -/
def copySnapshots (sampled : Fin gwMaxChannels → GwProcessMetricsSnapshot) (capacity : Nat)
    (manager : GwChannelManager) :
    List (Fin gwMaxChannels) → List GwChannelSnapshot → Except GwError (List GwChannelSnapshot)
  | [], copied => .ok copied
  | slot :: rest, copied =>
      if !(manager.entries slot).occupied then copySnapshots sampled capacity manager rest copied
      else if copied.length ≥ capacity then
        .error (gwErrorSet .errOverflow (ascii "snapshot array capacity is too small"))
      else
        copySnapshots sampled capacity manager rest
          (copied ++ [attachWorkerMetrics (sampled slot) (manager.entries slot).snapshot])

/-- `gw_channel_manager_list_snapshots`, under the read lock. -/
def gwChannelManagerListSnapshots (sampled : Fin gwMaxChannels → GwProcessMetricsSnapshot)
    (capacity : Nat) (manager : GwChannelManager) : Except GwError (List GwChannelSnapshot) :=
  copySnapshots sampled capacity manager slots []

/-- The `run_config` that `configure_entry` makes. -/
def runConfigOf (channel : GwChannelConfig) (config : GwConfig) : GwConfig :=
  { gwConfigInit with
      server := config.server
      mediamtx := config.mediamtx
      defaults := config.defaults
      channels := [channel] }

/-- `configure_entry`. -/
def configureEntry (callerOptions : GwSupervisorOptions) (channel : GwChannelConfig)
    (config : GwConfig) (entry : GwChannelEntry) : GwChannelEntry :=
  let generation := ((if entry.occupied then entry.generation else 0) + 1) % 2 ^ 64
  { entry with
      runConfig := runConfigOf channel config
      options :=
        { callerOptions with stopSignal := false, stopCheck := true, observer := true }
      result := 0
      stopSignal := 0
      generation := generation
      snapshot := { gwChannelSnapshotInit channel with configurationGeneration := generation }
      configuredAt := entry.supervisors.length
      occupied := true }

/-! ## Steps of a section -/

/-- What runs under `lifecycle_lock`.  The environment answers `pthread_create`. -/
abbrev Lifecycle (α : Type) : Type 1 := Section GwChannelManager (Option Errno) α

/-- A piece that runs on a condition. -/
def runWhen (condition : Bool) (body : Lifecycle Unit) : Lifecycle Unit :=
  if condition then body else pure ()

section Steps

variable (slot : Fin gwMaxChannels)

/-- A read of a slot. -/
def readEntry {α : Type} (f : GwChannelEntry → α) : Lifecycle α :=
  .read fun manager => f (manager.entries slot)

/-- A write of a slot. -/
def updateEntry (f : GwChannelEntry → GwChannelEntry) : Lifecycle Unit :=
  .write fun manager => manager.setEntry slot (f (manager.entries slot))

/-- `configure_entry` on a slot. -/
def configureSlot (channel : GwChannelConfig) (config : GwConfig) : Lifecycle Unit :=
  .write fun manager =>
    manager.setEntry slot
      (configureEntry manager.callerOptions channel config (manager.entries slot))

/-- A slot whose next thread is announced. -/
def GwChannelEntry.announced (entry : GwChannelEntry) : GwChannelEntry :=
  { entry with supervisors := entry.supervisors ++ [⟨.announced, 0, []⟩] }

/-- `atomic_fetch_add(&active_threads, 1)`. -/
def announceThread : Lifecycle Unit :=
  .write fun manager =>
    { manager.setEntry slot (manager.entries slot).announced with
        activeThreads := (manager.activeThreads + 1) % 2 ^ 64 }

/-- The slot after `pthread_create`. -/
def GwChannelEntry.afterCreate (entry : GwChannelEntry) : Option Errno → GwChannelEntry
  | none =>
      { entry.changeThread (entry.supervisors.length - 1) fun thread =>
          { thread with phase := .supervising } with
        thread := some (entry.supervisors.length - 1) }
  | some _ =>
      entry.changeThread (entry.supervisors.length - 1) fun thread =>
        { thread with phase := .creationFailed }

/-- `pthread_create(&entry->thread, NULL, run_channel, entry)`. -/
def createThread : Lifecycle (Option Errno) :=
  .step (fun manager answer =>
    some (answer, manager.setEntry slot ((manager.entries slot).afterCreate answer))) .done

/-- The slot whose announced thread is not counted any more. -/
def GwChannelEntry.retracted (entry : GwChannelEntry) : GwChannelEntry :=
  entry.changeThread (entry.supervisors.length - 1) fun thread => { thread with phase := .abandoned }

/-- `atomic_fetch_sub(&active_threads, 1)` after a failed creation. -/
def retractThread : Lifecycle Unit :=
  .write fun manager =>
    { manager.setEntry slot (manager.entries slot).retracted with
        activeThreads := (manager.activeThreads + (2 ^ 64 - 1)) % 2 ^ 64 }

/-- What `pthread_join(entry->thread, NULL)` leaves; nothing while the thread is not
over. -/
def GwChannelEntry.join (entry : GwChannelEntry) : Option GwChannelEntry :=
  match entry.thread with
  | none => some entry
  | some index =>
      match entry.supervisors[index]? with
      | none => some entry
      | some thread =>
          if thread.phase = .finished then
            some (entry.changeThread index fun thread => { thread with joins := thread.joins + 1 })
          else none

/-- `pthread_join(entry->thread, NULL)`. -/
def joinThread : Lifecycle Unit :=
  .step (fun manager _ =>
    (manager.entries slot).join.map fun entry => ((), manager.setEntry slot entry)) .done

/-- `start_entry`. -/
def startEntry : Lifecycle (Except GwError Unit) := do
  updateEntry slot fun entry => { entry with result := 0 }
  updateEntry slot fun entry => { entry with stopSignal := 0 }
  updateEntry slot fun entry => { entry with threadRunning := true }
  announceThread slot
  match ← createThread slot with
  | some errno =>
      retractThread slot
      updateEntry slot fun entry => { entry with threadRunning := false }
      let id ← readEntry slot fun entry => entry.channel.id.bytes
      pure (.error (gwErrorSet .errIo
        (ascii "cannot start channel '" ++ id ++ ascii "': " ++ errno.text)))
  | none =>
      updateEntry slot fun entry => { entry with threadStarted := true }
      pure (.ok ())

/-- The join of a slot's thread, after which the slot has none. -/
def reapEntry : Lifecycle Unit := do
  joinThread slot
  updateEntry slot fun entry => { entry with threadStarted := false }

/-- `stop_entry`. -/
def stopEntry : Lifecycle Unit := do
  let started ← readEntry slot (·.threadStarted)
  runWhen started do
    updateEntry slot fun entry => { entry with stopSignal := sigterm }
    reapEntry slot

end Steps

/-! ## `gw_channel_manager_create` -/

/-- What the calls of `gw_channel_manager_create` answer. -/
structure CreateAnswers where
  allocated : Bool
  snapshotLock : Option Errno
  lifecycleLock : Option Errno

/-- The text of a zeroed array. -/
def blankText (capacity : Nat) (h : 0 < capacity) : Text capacity := ⟨[], List.not_mem_nil, h⟩

/-- A zeroed `gw_config`. -/
def blankConfig : GwConfig where
  server := ⟨false, blankText _ (by decide), 0⟩
  mediamtx :=
    ⟨blankText _ gwUrlCap_pos,
      ⟨false, blankText _ (by decide), blankText _ (by decide), 0, 0, 0, 0, 0,
        blankText _ (by decide), 0⟩⟩
  defaults := ⟨0, 0, 0, 0, 0, 0⟩
  channels := []

/-- A slot after `calloc`. -/
def blankEntry : GwChannelEntry where
  occupied := false
  thread := none
  threadStarted := false
  threadRunning := false
  result := 0
  stopSignal := 0
  generation := 0
  options := ⟨none, false, false, false, false, false⟩
  runConfig := blankConfig
  snapshot :=
    { gwChannelSnapshotInit { channelInit with enabled := false } with
        lastEvent := blankText _ gwEventCap_pos
        processPid := 0
        lastExitCode := 0 }
  supervisors := []
  configuredAt := 0

/-- The loop that places the enabled channels.  A free slot is always found: there
are as many slots as channels in a configuration. -/
def placeChannels (config : GwConfig) (manager : GwChannelManager) (channel : GwChannelConfig) :
    GwChannelManager :=
  if channel.enabled then
    match findFreeEntry manager with
    | some slot =>
        manager.setEntry slot
          (configureEntry manager.callerOptions channel config (manager.entries slot))
    | none => manager
  else manager

/-- `gw_channel_manager_create`. -/
def gwChannelManagerCreate (answers : CreateAnswers) (config : GwConfig)
    (options : GwSupervisorOptions) : Except GwError GwChannelManager := do
  if options.ffmpegBinary.getD [] = [] then
    throw (gwErrorSet .errValidation (ascii "manager executable names must not be empty"))
  gwConfigValidate config
  if config.channels.all fun channel => !channel.enabled then
    throw (gwErrorSet .errValidation (ascii "at least one enabled channel is required"))
  if !answers.allocated then
    throw (gwErrorSet .errNoMemory (ascii "cannot allocate channel manager"))
  if let some errno := answers.snapshotLock then
    throw (ioError "cannot initialize snapshot lock: " errno)
  if let some errno := answers.lifecycleLock then
    throw (ioError "cannot initialize lifecycle lock: " errno)
  let manager : GwChannelManager :=
    { config := config
      callerOptions := options
      stopSignal := 0
      activeThreads := 0
      metricsThreadStarted := false
      entries := fun _ => blankEntry
      started := false
      result := 0 }
  pure (config.channels.foldl (placeChannels config) manager)

/-! ## Sections -/

/-- `gw_channel_manager_request_stop`. -/
def gwChannelManagerRequestStop (signal : Int) : Lifecycle Unit :=
  .write fun manager => { manager with stopSignal := if signal ≠ 0 then signal else sigterm }

/-- The loop that stops every slot. -/
def stopEntries : List (Fin gwMaxChannels) → Lifecycle Unit
  | [] => pure ()
  | slot :: rest => do
      stopEntry slot
      stopEntries rest

/-- The loop that starts the occupied slots, up to the first failure. -/
def startEntries : List (Fin gwMaxChannels) → Lifecycle (Except GwError Unit)
  | [] => pure (.ok ())
  | slot :: rest => do
      if ← readEntry slot (·.occupied) then
        match ← startEntry slot with
        | .error error => pure (.error error)
        | .ok _ => startEntries rest
      else startEntries rest

/-- `pthread_create` of the metrics sampler. -/
def createMetricsThread : Lifecycle (Option Errno) :=
  .step (fun manager answer => some (answer, manager)) .done

/-- `gw_channel_manager_start`. -/
def gwChannelManagerStart : Lifecycle (Except GwError Unit) := do
  if ← .read (·.started) then
    pure (.error (gwErrorSet .errValidation (ascii "channel manager is already started")))
  else
    .write fun manager => { manager with started := true }
    match ← startEntries slots with
    | .error error =>
        gwChannelManagerRequestStop sigterm
        stopEntries slots
        pure (.error error)
    | .ok _ =>
        match ← createMetricsThread with
        | some errno =>
            gwChannelManagerRequestStop sigterm
            stopEntries slots
            .write fun manager => { manager with started := false }
            pure (.error (ioError "cannot start metrics sampler: " errno))
        | none =>
            .write fun manager => { manager with metricsThreadStarted := true }
            pure (.ok ())

/-- The locals of a reload: the counts and the final status. -/
structure ReloadProgress where
  changes : GwChannelReloadSummary
  finalStatus : Except GwError Unit

/-- A failed start becomes the final status. -/
def ReloadProgress.settle (progress : ReloadProgress) (status : Except GwError Unit) :
    ReloadProgress :=
  match status with
  | .error error => { progress with finalStatus := .error error }
  | .ok _ => progress

/-- The loop over the slots. -/
def reloadSlots (candidate : GwConfig) (globalsEqual : Bool) :
    List (Fin gwMaxChannels) → ReloadProgress → Lifecycle ReloadProgress
  | [], progress => pure progress
  | slot :: rest, progress => do
      let (occupied, channel) ← readEntry slot fun entry => (entry.occupied, entry.channel)
      if !occupied then reloadSlots candidate globalsEqual rest progress
      else
        let changes := progress.changes
        match findEnabledChannel candidate channel.id.bytes with
        | none =>
            stopEntry slot
            updateEntry slot fun entry => { entry with occupied := false }
            reloadSlots candidate globalsEqual rest
              { progress with changes := { changes with removed := changes.removed + 1 } }
        | some replacement =>
            if globalsEqual && channelConfigEqual channel replacement then
              reloadSlots candidate globalsEqual rest
                { progress with changes := { changes with unchanged := changes.unchanged + 1 } }
            else
              stopEntry slot
              configureSlot slot replacement candidate
              let status ← startEntry slot
              reloadSlots candidate globalsEqual rest
                (ReloadProgress.settle
                  { progress with changes := { changes with restarted := changes.restarted + 1 } }
                  status)

/-- The loop over the candidate's channels. -/
def addChannels (candidate : GwConfig) :
    List GwChannelConfig → ReloadProgress → Lifecycle ReloadProgress
  | [], progress => pure progress
  | channel :: rest, progress => do
      let known ← .read fun manager => findEntry manager channel.id.bytes
      if !channel.enabled || known.isSome then addChannels candidate rest progress
      else
        match ← .read findFreeEntry with
        | none =>
            pure { progress with
              finalStatus := .error (gwErrorSet .errOverflow
                (ascii "channel manager capacity exceeded")) }
        | some slot =>
            configureSlot slot channel candidate
            let status ← startEntry slot
            let changes := progress.changes
            addChannels candidate rest
              (ReloadProgress.settle
                { progress with changes := { changes with added := changes.added + 1 } } status)

/-- `gw_channel_manager_reload`: the status and the summary. -/
def gwChannelManagerReload (candidate : GwConfig) :
    Lifecycle (Except GwError Unit × GwChannelReloadSummary) := do
  let started ← .read (·.started)
  let stopSignal ← .read (·.stopSignal)
  if !started || stopSignal ≠ 0 then
    pure (.error (gwErrorSet .errValidation (ascii "channel manager is not available for reload")),
      ⟨0, 0, 0, 0⟩)
  else
    match gwConfigValidate candidate with
    | .error error => pure (.error error, ⟨0, 0, 0, 0⟩)
    | .ok _ =>
        let globalsEqual ← .read fun manager => workerGlobalsEqual manager.config candidate
        let reloaded ← reloadSlots candidate globalsEqual slots ⟨⟨0, 0, 0, 0⟩, .ok ()⟩
        let progress ← addChannels candidate candidate.channels reloaded
        .write fun manager => { manager with config := candidate }
        pure (progress.finalStatus, progress.changes)

/-- `command_entry`. -/
def commandEntry (channelId : Bytes) : Lifecycle (Except GwError (Fin gwMaxChannels)) := do
  let started ← .read (·.started)
  let stopSignal ← .read (·.stopSignal)
  if !started || stopSignal ≠ 0 then
    pure (.error (gwErrorSet .errConflict
      (ascii "channel manager is not available for control")))
  else
    match ← .read fun manager => findEntry manager channelId with
    | none =>
        pure (.error (gwErrorSet .errNotFound
          (ascii "channel '" ++ channelId ++ ascii "' is not managed")))
    | some slot => pure (.ok slot)

/-- `gw_channel_manager_start_channel`. -/
def gwChannelManagerStartChannel (channelId : Bytes) : Lifecycle (Except GwError Unit) := do
  match ← commandEntry channelId with
  | .error error => pure (.error error)
  | .ok slot =>
      let started ← readEntry slot (·.threadStarted)
      let running ← readEntry slot (·.threadRunning)
      runWhen (started && !running) (reapEntry slot)
      if ← readEntry slot (·.threadStarted) then
        pure (.error (gwErrorSet .errConflict
          (ascii "channel '" ++ channelId ++ ascii "' is already active")))
      else
        let state ← readEntry slot (·.snapshot.state)
        if state ≠ .stopped ∧ state ≠ .failed then
          pure (.error (gwErrorSet .errConflict
            (ascii "channel '" ++ channelId ++ ascii "' cannot be started from " ++
              gwChannelStateString state)))
        else startEntry slot

/-- `gw_channel_manager_stop_channel`. -/
def gwChannelManagerStopChannel (channelId : Bytes) : Lifecycle (Except GwError Unit) := do
  match ← commandEntry channelId with
  | .error error => pure (.error error)
  | .ok slot =>
      let started ← readEntry slot (·.threadStarted)
      let running ← readEntry slot (·.threadRunning)
      if !started || !running then
        runWhen started (reapEntry slot)
        pure (.error (gwErrorSet .errConflict
          (ascii "channel '" ++ channelId ++ ascii "' is not active")))
      else
        stopEntry slot
        pure (.ok ())

/-- `gw_channel_manager_restart_channel`. -/
def gwChannelManagerRestartChannel (channelId : Bytes) : Lifecycle (Except GwError Unit) := do
  match ← commandEntry channelId with
  | .error error => pure (.error error)
  | .ok slot =>
      stopEntry slot
      startEntry slot

/-- The loop body of `gw_channel_manager_wait`. -/
def waitEntry (slot : Fin gwMaxChannels) : Lifecycle Unit := do
  let occupied ← readEntry slot (·.occupied)
  let started ← readEntry slot (·.threadStarted)
  runWhen (occupied && started) (reapEntry slot)
  let result ← readEntry slot (·.result)
  runWhen (occupied && result ≠ 0) (.write fun manager => { manager with result := 1 })

/-- The loop of `gw_channel_manager_wait`. -/
def waitEntries : List (Fin gwMaxChannels) → Lifecycle Unit
  | [] => pure ()
  | slot :: rest => do
      waitEntry slot
      waitEntries rest

/-- `gw_channel_manager_wait` from the lock on.  The sampler's thread is asked to
stop before it is joined. -/
def gwChannelManagerWait : Lifecycle Int := do
  .write fun manager => { manager with result := 0 }
  waitEntries slots
  .write fun manager => { manager with metricsThreadStarted := false }
  .read (·.result)

/-- `gw_channel_manager_is_finished`, which takes no lock. -/
def gwChannelManagerIsFinished (manager : GwChannelManager) : Bool :=
  manager.started && manager.activeThreads == 0

/-! ## Calls and interference -/

/-- The functions that take `lifecycle_lock`. -/
inductive LifecycleCall where
  | start
  | reload (candidate : GwConfig)
  | startChannel (channelId : Bytes)
  | stopChannel (channelId : Bytes)
  | restartChannel (channelId : Bytes)
  | wait

/-- What a call runs under the lock. -/
def LifecycleCall.body : LifecycleCall → Lifecycle Unit
  | .start => do
      let _ ← gwChannelManagerStart
  | .reload candidate => do
      let _ ← gwChannelManagerReload candidate
  | .startChannel channelId => do
      let _ ← gwChannelManagerStartChannel channelId
  | .stopChannel channelId => do
      let _ ← gwChannelManagerStopChannel channelId
  | .restartChannel channelId => do
      let _ ← gwChannelManagerRestartChannel channelId
  | .wait => do
      let _ ← gwChannelManagerWait

/-- The checks a call makes before it takes the lock. -/
def LifecycleCall.arrives (manager : GwChannelManager) : LifecycleCall → Bool
  | .startChannel channelId | .stopChannel channelId | .restartChannel channelId =>
      channelId ≠ []
  | .wait => manager.started
  | _ => true

/-- What a supervisor thread of the slot can have published by some moment: a prefix of
what one run of `gw_supervisor_run` publishes, with a clock that never goes back. -/
def GwChannelEntry.Publishes (entry : GwChannelEntry) (snapshots : List GwChannelSnapshot) :
    Prop :=
  ∃ (strtod : Strtod) (rounds : List RoundAnswers),
    let log := runLog (gwSupervisorRun strtod entry.runConfig entry.channel entry.options rounds)
    ClockMonotone log ∧ snapshots <+: publications log

/-- A thread's own step in its slot: its phase moves on, and the slot with it. -/
inductive ThreadStep (entry : GwChannelEntry) (index : Nat) : GwChannelEntry → Prop
  /-- `entry->result = gw_supervisor_run(…)` -/
  | returns {thread : SupervisorThread} (result : Int)
      (found : entry.supervisors[index]? = some thread) (phase : thread.phase = .supervising) :
      ThreadStep entry index
        { entry.changeThread index fun thread => { thread with phase := .returned } with
          result := result }
  /-- `atomic_store(&entry->thread_running, false)` -/
  | stores {thread : SupervisorThread} (found : entry.supervisors[index]? = some thread)
      (phase : thread.phase = .returned) :
      ThreadStep entry index
        { entry.changeThread index fun thread => { thread with phase := .stored } with
          threadRunning := false }
  /-- `manager_observe` -/
  | observes {thread : SupervisorThread} (snapshot : GwChannelSnapshot)
      (found : entry.supervisors[index]? = some thread) (phase : thread.phase = .supervising)
      (publishes : entry.Publishes (thread.published ++ [snapshot])) :
      ThreadStep entry index
        { entry.changeThread index fun thread =>
            { thread with published := thread.published ++ [snapshot] } with
          snapshot := { snapshot with configurationGeneration := entry.generation } }

/-- What happens outside the lock: the supervisor threads, and, where the manager is
`stoppable`, `gw_channel_manager_request_stop`. -/
inductive Interferes (stoppable : Prop) : GwChannelManager → GwChannelManager → Prop
  | thread {manager : GwChannelManager} (slot : Fin gwMaxChannels) {index : Nat}
      {entry : GwChannelEntry} (step : ThreadStep (manager.entries slot) index entry) :
      Interferes stoppable manager (manager.setEntry slot entry)
  /-- `atomic_fetch_sub(&active_threads, 1)`, and the thread is over -/
  | finishes {manager : GwChannelManager} (slot : Fin gwMaxChannels) {index : Nat}
      {thread : SupervisorThread}
      (found : (manager.entries slot).supervisors[index]? = some thread)
      (phase : thread.phase = .stored) :
      Interferes stoppable manager
        { manager.setEntry slot
            ((manager.entries slot).changeThread index fun thread =>
              { thread with phase := .finished }) with
          activeThreads := (manager.activeThreads + (2 ^ 64 - 1)) % 2 ^ 64 }
  | requestStop {manager : GwChannelManager} (allowed : stoppable) (signal : Int)
      (nonzero : signal ≠ 0) :
      Interferes stoppable manager { manager with stopSignal := signal }

end LearnApue.Gateway
