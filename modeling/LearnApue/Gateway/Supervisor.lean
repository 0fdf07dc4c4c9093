import LearnApue.Gateway.WorkerAttempt

set_option autoImplicit false

/-!
# Gateway: the channel supervisor (`gw_supervisor_run` in `supervisor.c`)

Attempts, backoff waits and state transitions of one channel.  A run over a list of
round answers is a finite prefix of a run of the supervisor, up to a return or to a
call that waits for more.
-/

namespace LearnApue.Gateway

open LearnApue.Foundation

/-- What the environment answers in one backoff wait: the clock at its start, then the
clock and the stop sources of each turn. -/
structure BackoffAnswers where
  startClock : ClockAnswer
  rounds : List (ClockAnswer × StopSources)

/-- What the environment answers in one round of the supervisor's loop. -/
structure RoundAnswers where
  attempt : AttemptAnswers
  backoff : BackoffAnswers

/-- A piece of the supervisor's loop body: it goes on with a value, returns the exit
status, or waits. -/
abbrev SupervisorFlow (α : Type) : Type :=
  Flow (α × SupervisorState) (Int × SupervisorState) SupervisorState

/-- The loop of `wait_for_backoff`. -/
def backoffWait (options : GwSupervisorOptions) (backoffSec : Int) (startedAt : Timespec) :
    List (ClockAnswer × StopSources) → SupervisorState → SupervisorFlow Bool
  | [], state => .blocked state
  | (clock, sources) :: rest, state =>
      let state := state.note [.clock clock]
      if timeoutElapsed startedAt clock backoffSec then .next (true, state)
      else if stopSignalValue options sources ≠ 0 then .next (false, state.note [.stopRequested])
      else backoffWait options backoffSec startedAt rest state

/-- `wait_for_backoff`. -/
def waitForBackoff (options : GwSupervisorOptions) (backoffSec : Int) (answers : BackoffAnswers)
    (state : SupervisorState) : SupervisorFlow Bool :=
  match answers.startClock with
  | none => .next (false, state.note [.clock none])
  | some startedAt =>
      backoffWait options backoffSec startedAt answers.rounds
        (state.note [.clock (some startedAt)])

section Round

variable (policy : GwRetryPolicy) (options : GwSupervisorOptions)

/-- A transition, then the snapshot's update and its publication; an error of the
transition returns 1. -/
def enterState (event : GwChannelEvent) (label : Bytes) (prepare : GwChannelSnapshot → GwChannelSnapshot)
    (state : SupervisorState) : SupervisorFlow Unit :=
  let (state, result) := state.transition policy event
  match result with
  | .error _ => .leave (1, state)
  | .ok _ =>
      let prepared := { state with snapshot := prepare state.snapshot }
      .next ((), (prepared.updateRuntime label).publish options)

/-- The snapshot published after an attempt. -/
def showAttempt (result : WorkerAttemptResult) (state : SupervisorState) : SupervisorState :=
  let label := attemptEventString result.outcome
  let cleared := gwChannelSnapshotClearProcess state.snapshot result.exitCode label
  let shown :=
    if result.progress.status.bytes ≠ [] then
      gwChannelSnapshotSetProgress cleared result.progress label
    else cleared
  ({ state with snapshot := shown } : SupervisorState).publish options

/-- The wait after a failure, and the transition that ends it. -/
def retryRound (answers : BackoffAnswers) (state : SupervisorState) : SupervisorFlow Unit :=
  (waitForBackoff options state.runtime.backoffSec answers state).bind fun (waited, state) =>
    if waited then enterState policy options .backoffElapsed (ascii "backoff_elapsed") id state
    else
      (enterState policy options .stop (ascii "stop_requested") id state).bind fun (_, state) =>
        .leave (0, state)

/-- What follows an attempt. -/
def afterAttempt (answers : BackoffAnswers) (result : WorkerAttemptResult)
    (state : SupervisorState) : SupervisorFlow Unit :=
  let label := attemptEventString result.outcome
  let state := showAttempt options result state
  if result.outcome = .cleanExit ∨ result.outcome = .stopRequested then
    (enterState policy options .stop label id state).bind fun (_, state) => .leave (0, state)
  else
    (enterState policy options .failure label gwChannelSnapshotClearLiveData state).bind
      fun (_, state) =>
        if state.runtime.state = .failed ∧ options.exitOnRetryExhaustion = true then
          .leave (1, state)
        else retryRound policy options answers state

end Round

/-- The body of the supervisor's loop. -/
def supervisorRound (strtod : Strtod) (config : GwConfig) (channel : GwChannelConfig)
    (options : GwSupervisorOptions) (answers : RoundAnswers) (state : SupervisorState) :
    Flow SupervisorState (Int × SupervisorState) SupervisorState :=
  let state := state.note [.attemptStarted state.runtime]
  (runWorkerAttempt strtod config channel options answers.attempt state).bind
    fun (result, state) =>
      let state := state.note [.attemptEnded result.outcome result.exitCode]
      (afterAttempt config.defaults options answers.backoff result state).bind
        fun (_, state) => .next state

/-- The locals before the first call. -/
def supervisorStart (channel : GwChannelConfig) : SupervisorState :=
  ⟨gwChannelRuntimeInit channel.enabled, gwChannelSnapshotInit channel, []⟩

/-- `gw_supervisor_run`: it returns an exit status, or still runs. -/
def gwSupervisorRun (strtod : Strtod) (config : GwConfig) (channel : GwChannelConfig)
    (options : GwSupervisorOptions) (rounds : List RoundAnswers) :
    Flow SupervisorState (Int × SupervisorState) SupervisorState :=
  if options.ffmpegBinary.getD [] = [] then .leave (2, supervisorStart channel)
  else
    (enterState config.defaults options .start (ascii "start") id (supervisorStart channel)).bind
      fun (_, state) =>
        Flow.loop (fun _ => none) id (supervisorRound strtod config channel options) rounds state

end LearnApue.Gateway
