import LearnApue.Foundation.Loop
import LearnApue.Gateway.ChannelSnapshot
import LearnApue.Gateway.PipelineBuilder
import LearnApue.Gateway.ProcessManager
import LearnApue.Gateway.StderrLines

set_option autoImplicit false

/-!
# Gateway: one worker attempt (`run_worker_attempt` in `supervisor.c`)

The environment is data: the answers of the calls an attempt makes, one record for
each iteration of its loop.  The blocks of the loop body are definitions of their
own, in the source's order.  What the supervisor did is the log: its state
transitions, the snapshots it published, its clock reads, its worker's records and
the system calls of its worker's handle.  Operator messages are left out.
-/

namespace LearnApue.Gateway

open LearnApue.Foundation

/-! ## Options and stop sources -/

/-- `gw_supervisor_options`; of the pointers it matters which are set. -/
structure GwSupervisorOptions where
  ffmpegBinary : Option Bytes
  stopSignal : Bool
  stopCheck : Bool
  stopOnCleanExit : Bool
  exitOnRetryExhaustion : Bool
  observer : Bool

/-- `gw_supervisor_options_init`. -/
def gwSupervisorOptionsInit : GwSupervisorOptions :=
  ⟨some (ascii "ffmpeg"), false, false, false, false, false⟩

/-- What the two stop sources hold when they are read. -/
structure StopSources where
  check : Int
  signal : Int

/-- `stop_signal_value`. -/
def stopSignalValue (options : GwSupervisorOptions) (sources : StopSources) : Int :=
  if options.stopCheck ∧ sources.check ≠ 0 then sources.check
  else if options.stopSignal then sources.signal
  else 0

/-! ## Time -/

/-- `stop_timeout_ms`. -/
def stopTimeoutMs (config : GwConfig) : Int :=
  if config.defaults.stopTimeoutSec > intMax / 1000 then intMax
  else config.defaults.stopTimeoutSec * 1000

/-- The comparison of `timeout_elapsed`, after a successful clock read. -/
def elapsed (start now : Timespec) (timeoutSec : Int) : Bool :=
  let borrow := now.nsec - start.nsec < 0
  let seconds := now.sec - start.sec - (if borrow then 1 else 0)
  let nanoseconds := now.nsec - start.nsec + (if borrow then 1000000000 else 0)
  seconds > timeoutSec || (seconds = timeoutSec && nanoseconds ≥ 0)

/-- A timeout has passed when the clock is that many seconds on. -/
theorem elapsed_iff (start now : Timespec) (timeoutSec : Int) :
    elapsed start now timeoutSec = true ↔
      start.nanoseconds + timeoutSec * 1000000000 ≤ now.nanoseconds := by
  have hstart := start.nsecNonneg
  have hstartFits := start.nsecFits
  have hnow := now.nsecNonneg
  have hnowFits := now.nsecFits
  unfold elapsed Timespec.nanoseconds
  simp only [Bool.or_eq_true, Bool.and_eq_true, decide_eq_true_eq]
  by_cases hborrow : now.nsec - start.nsec < 0
  · simp only [hborrow, if_true]
    omega
  · simp only [hborrow, if_false]
    omega

/-- `timeout_elapsed`. -/
def timeoutElapsed (start : Timespec) (clock : ClockAnswer) (timeoutSec : Int) : Bool :=
  match clock with
  | none => false
  | some now => elapsed start now timeoutSec

/-! ## The supervisor's state and log -/

/-- `worker_attempt_outcome`. -/
inductive WorkerAttemptOutcome where
  | pending
  | cleanExit
  | workerFailure
  | startupTimeout
  | progressTimeout
  | stopRequested
  | internalError
  deriving DecidableEq, Repr

/-- `attempt_event_string`. -/
def attemptEventString : WorkerAttemptOutcome → Bytes
  | .cleanExit => ascii "clean_exit"
  | .workerFailure => ascii "worker_failure"
  | .startupTimeout => ascii "startup_timeout"
  | .progressTimeout => ascii "progress_timeout"
  | .stopRequested => ascii "stop_requested"
  | .internalError => ascii "internal_error"
  | .pending => ascii "unknown"

/-- `worker_attempt_result`. -/
structure WorkerAttemptResult where
  outcome : WorkerAttemptOutcome
  exitCode : Int
  progress : GwWorkerProgress

/-- What the supervisor does that others can see or that its history records. -/
inductive SupervisorEvent where
  /-- a call of `gw_channel_transition`, with the runtime it left -/
  | transition (event : GwChannelEvent) (result : Except GwError Unit) (runtime : GwChannelRuntime)
  /-- a snapshot handed to the observer -/
  | published (snapshot : GwChannelSnapshot)
  /-- a call of `run_worker_attempt`, with the runtime it starts from -/
  | attemptStarted (runtime : GwChannelRuntime)
  /-- its return -/
  | attemptEnded (outcome : WorkerAttemptOutcome) (exitCode : Int)
  /-- a progress record completed by the worker -/
  | record (progress : GwWorkerProgress)
  /-- a stop request that was acted on -/
  | stopRequested
  /-- a read of `CLOCK_MONOTONIC` -/
  | clock (answer : ClockAnswer)
  /-- a call of the worker's handle -/
  | system (call : SystemCall)
  /-- a line of the worker's stderr, as printed -/
  | printed (line : Bytes)

/-- The locals of `gw_supervisor_run`, with the log. -/
structure SupervisorState where
  runtime : GwChannelRuntime
  snapshot : GwChannelSnapshot
  log : List SupervisorEvent

namespace SupervisorState

/-- The log grows. -/
def note (state : SupervisorState) (events : List SupervisorEvent) : SupervisorState :=
  { state with log := state.log ++ events }

/-- `gw_channel_transition(runtime, event, &config->defaults, &error)`. -/
def transition (policy : GwRetryPolicy) (event : GwChannelEvent) (state : SupervisorState) :
    SupervisorState × Except GwError Unit :=
  let reply := gwChannelTransition state.runtime event policy
  (({ state with runtime := reply.1 } : SupervisorState).note
    [.transition event reply.2 reply.1], reply.2)

/-- `publish_snapshot`. -/
def publish (options : GwSupervisorOptions) (state : SupervisorState) : SupervisorState :=
  if options.observer then state.note [.published state.snapshot] else state

/-- `gw_channel_snapshot_update_runtime(snapshot, runtime, event)`. -/
def updateRuntime (event : Bytes) (state : SupervisorState) : SupervisorState :=
  { state with snapshot := gwChannelSnapshotUpdateRuntime state.snapshot state.runtime event }

end SupervisorState

/-! ## The attempt's state and answers -/

/-- The locals of `run_worker_attempt`, with the supervisor's state it shares. -/
structure AttemptState where
  shared : SupervisorState
  process : GwProcess
  parser : GwProgressParser
  latestProgress : GwWorkerProgress
  stderrLines : StderrLineBuffer
  receivedProgress : Bool
  stableReported : Bool
  exited : Bool
  startedAt : Timespec
  lastProgressAt : Timespec
  runningSince : Timespec
  outcome : WorkerAttemptOutcome

/-- The log grows. -/
def AttemptState.note (state : AttemptState) (events : List SupervisorEvent) : AttemptState :=
  { state with shared := state.shared.note events }

/-- A piece of the attempt's loop body. -/
abbrev AttemptFlow : Type := Flow AttemptState AttemptState AttemptState

/-- What `poll` answers: which descriptors have events, or a failure. -/
abbrev PollAnswer : Type := Except Errno (Bool × Bool)

/-- What the environment answers in one iteration. -/
structure IterationAnswers where
  stop : StopSources
  stopProcess : StopAnswers
  poll : PollAnswer
  stdoutRead : ReadAnswer
  progressClock : ClockAnswer
  stderrRead : ReadAnswer
  wait : WaitAnswer
  stableClock : ClockAnswer
  timeoutClock : ClockAnswer
  timeoutStop : StopAnswers

/-- What the environment answers in one attempt. -/
structure AttemptAnswers where
  allocator : Allocator
  start : StartAnswers
  startedClock : ClockAnswer
  startedStop : StopAnswers
  iterations : List IterationAnswers
  cleanupStop : StopAnswers

/-! ## The loop body -/

section Body

variable (strtod : Strtod) (config : GwConfig) (channel : GwChannelConfig)
  (options : GwSupervisorOptions) (answers : IterationAnswers)

/-- The stop check at the top of the loop. -/
def stopBlock (state : AttemptState) : AttemptFlow :=
  if stopSignalValue options answers.stop ≠ 0 ∧ state.outcome = .pending ∧ state.exited = false then
    match gwProcessStop state.process (stopTimeoutMs config) answers.stopProcess with
    | none => .blocked (state.note [.stopRequested])
    | some reply =>
        let state := { state with process := reply.process }.note
          (.stopRequested :: reply.calls.map .system)
        match reply.result with
        | .error _ => .leave state
        | .ok _ => .next { state with outcome := .stopRequested, exited := true }
  else .next state

/-- The descriptors with events after `poll`, which passes over negative ones. -/
def readyDescriptors (process : GwProcess) : PollAnswer → Bool × Bool
  | .ok (first, second) => (process.stdoutFd ≥ 0 && first, process.stderrFd ≥ 0 && second)
  | .error _ => (false, false)

/-- The `poll` call. -/
def pollBlock (state : AttemptState) : AttemptFlow :=
  match answers.poll with
  | .error errno => if errno.code = eintr then .next state else .leave state
  | .ok _ => .next state

/-- Publishing a completed record. -/
def publishProgress (state : AttemptState) : AttemptState :=
  let updated := state.shared.updateRuntime (ascii "progress")
  let shown : SupervisorState :=
    { updated with
        snapshot := gwChannelSnapshotSetProgress updated.snapshot state.latestProgress
          (ascii "progress") }
  { state with shared := shown.publish options }

/-- What follows a completed record. -/
def progressBlock (state : AttemptState) : AttemptFlow :=
  match answers.progressClock with
  | none => .leave { state.note [.clock none] with outcome := .internalError }
  | some now =>
      let state := { state.note [.clock (some now)] with lastProgressAt := now }
      if state.receivedProgress then .next (publishProgress options state)
      else
        let state := { state with receivedProgress := true, runningSince := now }
        let (shared, result) := state.shared.transition config.defaults .progress
        match result with
        | .error _ => .leave { state with shared := shared, outcome := .internalError }
        | .ok _ => .next (publishProgress options { state with shared := shared })

/-- The read of the worker's stdout. -/
def stdoutBlock (ready : Bool) (state : AttemptState) : AttemptFlow :=
  if ready then
    let reply := gwProcessRead state.process .stdout answers.stdoutRead
    let state := { state with process := reply.process }.note (reply.calls.map .system)
    match reply.result with
    | .error _ => .leave state
    | .ok read =>
        let (call, result) :=
          gwProgressParserConsume strtod state.parser read.data state.latestProgress
        let state := { state with parser := call.parser, latestProgress := call.progress }
        match result with
        | .error _ => .leave state
        | .ok _ =>
            if call.completed then
              progressBlock config options answers (state.note [.record state.latestProgress])
            else .next state
  else .next state

/-- The read of the worker's stderr. -/
def stderrBlock (ready : Bool) (state : AttemptState) : AttemptFlow :=
  if ready then
    let reply := gwProcessRead state.process .stderr answers.stderrRead
    let state := { state with process := reply.process }.note (reply.calls.map .system)
    match reply.result with
    | .error _ => .leave state
    | .ok read =>
        let consumed := consumeStderr channel (ascii "worker") state.stderrLines read.data
        let state := { state with stderrLines := consumed.1 }.note (consumed.2.map .printed)
        if read.endOfStream then
          let flushed := flushStderr channel (ascii "worker") state.stderrLines
          .next ({ state with stderrLines := flushed.1 }.note (flushed.2.map .printed))
        else .next state
  else .next state

/-- The exit poll. -/
def exitBlock (state : AttemptState) : AttemptFlow :=
  if state.exited then .next state
  else
    let reply := gwProcessPollExit state.process answers.wait
    let state := { state with process := reply.process }.note (reply.calls.map .system)
    match reply.result with
    | .error _ => .leave state
    | .ok exited => .next { state with exited := exited }

/-- The stability report. -/
def stableBlock (state : AttemptState) : AttemptFlow :=
  if state.exited = false ∧ state.receivedProgress = true ∧ state.stableReported = false then
    let stable := timeoutElapsed state.runningSince answers.stableClock config.defaults.stableRunSec
    let state := state.note [.clock answers.stableClock]
    if stable then
      let (shared, result) := state.shared.transition config.defaults .stable
      match result with
      | .error _ => .leave { state with shared := shared, outcome := .internalError }
      | .ok _ =>
          .next { state with
            shared := (shared.updateRuntime (ascii "stable")).publish options
            stableReported := true }
    else .next state
  else .next state

/-- Which timeout has passed, when one has. -/
def timeoutOutcome (state : AttemptState) : WorkerAttemptOutcome :=
  if state.receivedProgress then
    if timeoutElapsed state.lastProgressAt answers.timeoutClock config.defaults.progressTimeoutSec
    then .progressTimeout else .pending
  else
    if timeoutElapsed state.startedAt answers.timeoutClock config.defaults.startupTimeoutSec
    then .startupTimeout else .pending

/-- The timeouts at the end of the loop body. -/
def timeoutBlock (state : AttemptState) : AttemptFlow :=
  if state.exited = false ∧ state.outcome = .pending then
    let outcome := timeoutOutcome config answers state
    let state := state.note [.clock answers.timeoutClock]
    if outcome ≠ .pending then
      match gwProcessStop state.process (stopTimeoutMs config) answers.timeoutStop with
      | none => .blocked state
      | some reply =>
          let state := { state with process := reply.process }.note (reply.calls.map .system)
          match reply.result with
          | .error _ => .leave { state with outcome := .internalError }
          | .ok _ => .next { state with outcome := outcome, exited := true }
    else .next state
  else .next state

/-- The loop body. -/
def attemptIteration (state : AttemptState) : AttemptFlow :=
  (stopBlock config options answers state).bind fun state =>
    (pollBlock answers state).bind fun state =>
      let ready := readyDescriptors state.process answers.poll
      (stdoutBlock strtod config options answers ready.1 state).bind fun state =>
        (stderrBlock channel answers ready.2 state).bind fun state =>
          (exitBlock answers state).bind fun state =>
            (stableBlock config options answers state).bind fun state =>
              timeoutBlock config answers state

end Body

/-- The loop's condition, when it is false. -/
def attemptDone (state : AttemptState) : Option AttemptState :=
  if state.exited = false ∨ state.process.stdoutFd ≥ 0 ∨ state.process.stderrFd ≥ 0 then none
  else some state

/-- The loop ends in the state in which its condition was tested. -/
theorem attemptDone_eq {state result : AttemptState} (h : attemptDone state = some result) :
    result = state := by
  unfold attemptDone at h
  split at h
  · cases h
  · exact (Option.some.inj h).symm

/-- The loop. -/
def attemptLoop (strtod : Strtod) (config : GwConfig) (channel : GwChannelConfig)
    (options : GwSupervisorOptions) : List IterationAnswers → AttemptState → AttemptFlow :=
  Flow.loop attemptDone id (attemptIteration strtod config channel options)

/-! ## The attempt -/

/-- How an attempt ends for its caller. -/
abbrev AttemptRun (ρ : Type) : Type :=
  Flow (WorkerAttemptResult × SupervisorState) ρ SupervisorState

/-- The end of an attempt whose worker may be left: the exit code and the outcome,
then `gw_process_close`. -/
def closeAttempt {ρ : Type} (options : GwSupervisorOptions) (state : AttemptState) :
    AttemptRun ρ :=
  let exitCode := if state.process.reaped then gwProcessExitCode state.process else -1
  let outcome :=
    if state.process.reaped ∧ state.outcome = .pending then
      if exitCode = 0 ∧ options.stopOnCleanExit = true then .cleanExit else .workerFailure
    else state.outcome
  let reply := gwProcessClose state.process
  let shared := state.shared.note (reply.calls.map .system)
  match reply.result with
  | .error _ => .next (⟨.internalError, exitCode, state.latestProgress⟩, shared)
  | .ok _ => .next (⟨outcome, exitCode, state.latestProgress⟩, shared)

/-- What follows the loop. -/
def finishAttempt {ρ : Type} (config : GwConfig) (options : GwSupervisorOptions)
    (cleanup : StopAnswers) (state : AttemptState) : AttemptRun ρ :=
  if state.process.running then
    match gwProcessStop state.process (stopTimeoutMs config) cleanup with
    | none => .blocked state.shared
    | some reply =>
        closeAttempt options
          ({ state with process := reply.process }.note (reply.calls.map .system))
  else closeAttempt options state

/-- The loop's end in the attempt. -/
def afterLoop {ρ : Type} (config : GwConfig) (options : GwSupervisorOptions)
    (cleanup : StopAnswers) : AttemptFlow → AttemptRun ρ
  | .next state => finishAttempt config options cleanup state
  | .leave state => finishAttempt config options cleanup state
  | .blocked state => .blocked state.shared

/-- An attempt that failed before its loop. -/
def failedAttempt (outcome : WorkerAttemptOutcome) : WorkerAttemptResult :=
  ⟨outcome, -1, .zero⟩

/-- The state in which the loop starts. -/
def attemptStart (options : GwSupervisorOptions) (process : GwProcess) (startedAt : Timespec)
    (state : SupervisorState) : AttemptState where
  shared :=
    ({ state with
        snapshot := gwChannelSnapshotSetProcess state.snapshot .worker process.pid
          (ascii "worker_started") } : SupervisorState).publish options
  process := process
  parser := gwProgressParserInit
  latestProgress := .zero
  stderrLines := .empty
  receivedProgress := false
  stableReported := false
  exited := false
  startedAt := startedAt
  lastProgressAt := startedAt
  runningSince := startedAt
  outcome := .pending

/-- `run_worker_attempt` once the worker runs. -/
def superviseWorker {ρ : Type} (strtod : Strtod) (config : GwConfig) (channel : GwChannelConfig)
    (options : GwSupervisorOptions) (answers : AttemptAnswers) (process : GwProcess)
    (state : SupervisorState) : AttemptRun ρ :=
  match answers.startedClock with
  | none =>
      -- `gw_process_stop` and `gw_process_close`, their results unused
      match gwProcessStop process (stopTimeoutMs config) answers.startedStop with
      | none => .blocked (state.note [.clock none])
      | some reply =>
          .next (failedAttempt .internalError,
            (state.note (.clock none :: reply.calls.map .system)).note
              ((gwProcessClose reply.process).calls.map .system))
  | some now =>
      afterLoop config options answers.cleanupStop
        (attemptLoop strtod config channel options answers.iterations
          (attemptStart options process now (state.note [.clock (some now)])))

/-- `run_worker_attempt`. -/
def runWorkerAttempt {ρ : Type} (strtod : Strtod) (config : GwConfig) (channel : GwChannelConfig)
    (options : GwSupervisorOptions) (answers : AttemptAnswers) (state : SupervisorState) :
    AttemptRun ρ :=
  match gwPipelineBuild answers.allocator channel config.mediamtx options.ffmpegBinary with
  | .error _ => .next (failedAttempt .internalError, state)
  | .ok arguments =>
      let reply := gwProcessStart gwProcessInit arguments answers.start
      let state := state.note (reply.calls.map .system)
      match reply.result with
      | .error _ => .next (failedAttempt .workerFailure, state)
      | .ok _ => superviseWorker strtod config channel options answers reply.process state

end LearnApue.Gateway
