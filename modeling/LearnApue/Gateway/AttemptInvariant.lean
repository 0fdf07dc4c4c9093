import LearnApue.Gateway.SupervisorInvariant

set_option autoImplicit false

/-!
# Gateway: the invariant of a worker attempt

`AttemptInv` is what holds at every boundary between two blocks of the loop of
`run_worker_attempt`, and `AttemptLeft` what is left of it when the loop is broken
out of.  Each block has one lemma; the loop and the whole attempt follow from the
rules for `Flow`.

The invariant ties three records of the attempt to each other: the state machine in
`runtime`, the snapshot that is published, and the log of what has happened.  They part
for a moment when a progress record is complete: the log has the new record and the
snapshot shows the old one, until `progressBlock` publishes it (`RecordPending`).

A call of the worker's handle may not have returned when the answers of a run are used
up.  Of such a run only the log is said to be right (`AttemptWaits`).
-/

namespace LearnApue.Gateway

open LearnApue.Foundation

/-! ## The invariant -/

/-- What holds of an attempt whatever became of its last record. -/
structure AttemptCore (policy : GwRetryPolicy) (options : GwSupervisorOptions)
    (state : AttemptState) : Prop where
  shared : SupervisorInv policy options state.shared
  /-- The channel runs from the first record of the attempt on. -/
  phase : state.shared.runtime.state = if state.receivedProgress then .running else .starting
  kind : state.shared.snapshot.processKind = .worker
  shown : state.shared.snapshot.hasProgress = state.receivedProgress
  handle : state.process.Started
  stopSeen : state.outcome = .stopRequested → .stopRequested ∈ state.shared.log
  /-- Whether an exit was clean is decided behind the loop. -/
  notClean : state.outcome ≠ .cleanExit
  /-- This attempt is one more than the restarts. -/
  counted : attempts state.shared.log = restarts state.shared.log + 1

/-- What holds between two blocks: the snapshot shows the last record. -/
structure AttemptInv (policy : GwRetryPolicy) (options : GwSupervisorOptions)
    (state : AttemptState) : Prop extends AttemptCore policy options state where
  record : state.receivedProgress = true →
    attemptRecord state.shared.log = some state.shared.snapshot.progress

/-- What holds once the loop is left, from whichever block: the snapshot may be behind. -/
structure AttemptLeft (policy : GwRetryPolicy) (options : GwSupervisorOptions)
    (state : AttemptState) : Prop where
  shared : SupervisorInv policy options state.shared
  phase : state.shared.runtime.state = .starting ∨ state.shared.runtime.state = .running
  handle : state.process.Started
  stopSeen : state.outcome = .stopRequested → .stopRequested ∈ state.shared.log
  notClean : state.outcome ≠ .cleanExit
  counted : attempts state.shared.log = restarts state.shared.log + 1

/-- What holds while a call of the attempt has not returned. -/
def AttemptWaits (options : GwSupervisorOptions) (state : AttemptState) : Prop :=
  LogInv options state.shared.log

section Frame

variable {policy : GwRetryPolicy} {options : GwSupervisorOptions} {state : AttemptState}

/-- A block may leave the loop also while a record is pending. -/
theorem AttemptCore.left (h : AttemptCore policy options state) :
    AttemptLeft policy options state := by
  refine ⟨h.shared, ?_, h.handle, h.stopSeen, h.notClean, h.counted⟩
  rw [h.phase]
  cases state.receivedProgress with
  | true => exact Or.inr rfl
  | false => exact Or.inl rfl

/-- An internal error is an outcome like any other. -/
theorem AttemptLeft.internalError (h : AttemptLeft policy options state) :
    AttemptLeft policy options { state with outcome := .internalError } :=
  ⟨h.shared, h.phase, h.handle, (by simp), (by simp), h.counted⟩

/-- Plain events change no part of the invariant. -/
theorem AttemptInv.note_plain (h : AttemptInv policy options state)
    {events : List SupervisorEvent} (hplain : ∀ event ∈ events, event.isPlain = true) :
    AttemptInv policy options (state.note events) := by
  obtain ⟨hshared, hsame⟩ := h.shared.note_plain hplain
  refine ⟨⟨hshared, h.phase, h.kind, h.shown, h.handle, ?_, h.notClean, ?_⟩, ?_⟩
  · exact fun heq => List.mem_append_left _ (h.stopSeen heq)
  · have hcounted := h.counted
    rw [← hsame.attempts, ← hsame.restarts] at hcounted
    exact hcounted
  · exact fun hreceived => hsame.record.trans (h.record hreceived)

/-- A clock read changes no part of the invariant. -/
theorem AttemptInv.clock (h : AttemptInv policy options state) (answer : ClockAnswer) :
    AttemptInv policy options (state.note [.clock answer]) := by
  refine ⟨⟨h.shared.clock answer, h.phase, h.kind, h.shown, h.handle, ?_, h.notClean, ?_⟩, ?_⟩
  · exact fun heq => List.mem_append_left _ (h.stopSeen heq)
  · simp only [AttemptState.note, SupervisorState.note]
    rw [attempts_concat, restarts_concat]
    exact h.counted
  · intro hreceived
    simp only [AttemptState.note, SupervisorState.note]
    rw [attemptRecord_concat]
    exact h.record hreceived

/-- The handle may change, with the calls that changed it. -/
theorem AttemptInv.reply (h : AttemptInv policy options state) {process : GwProcess}
    (hstarted : process.Started) (calls : List SystemCall) :
    AttemptInv policy options
      ({ state with process := process }.note (calls.map .system)) := by
  have hmoved : AttemptInv policy options { state with process := process } :=
    ⟨⟨h.shared, h.phase, h.kind, h.shown, hstarted, h.stopSeen, h.notClean, h.counted⟩, h.record⟩
  exact hmoved.note_plain (plain_system calls)

/-- What an attempt may publish: a worker that starts, or that runs with its last record. -/
theorem AttemptInv.shape (h : AttemptInv policy options state) :
    SnapshotShape state.shared.log state.shared.snapshot := by
  have hstate : state.shared.snapshot.state = if state.receivedProgress then .running else .starting := by
    rw [← h.phase, ← h.shared.shown]
    rfl
  constructor
  · intro _
    rw [h.shown, hstate]
    refine ⟨?_, ?_, h.record⟩
    · cases state.receivedProgress with
      | true => exact Or.inr rfl
      | false => exact Or.inl rfl
    · cases state.receivedProgress <;> simp
  · rw [hstate]
    intro hidle
    cases hreceived : state.receivedProgress <;> simp [hreceived] at hidle
  · rw [hstate]
    intro hretrying
    cases hreceived : state.receivedProgress <;> simp [hreceived] at hretrying

/-- Publishing changes no part of the invariant. -/
theorem AttemptInv.publish (h : AttemptInv policy options state) :
    AttemptInv policy options { state with shared := state.shared.publish options } := by
  obtain ⟨hruntime, hsnapshot, hrestarts, hattempts, hrecord, hgrows⟩ :=
    publish_frame options state.shared
  refine ⟨⟨h.shared.publish h.shape, ?_, ?_, ?_, h.handle, ?_, h.notClean, ?_⟩, ?_⟩
  · simp only [hruntime]
    exact h.phase
  · simp only [hsnapshot]
    exact h.kind
  · simp only [hsnapshot]
    exact h.shown
  · exact fun heq => hgrows _ (h.stopSeen heq)
  · simp only [hrestarts, hattempts]
    exact h.counted
  · simp only [hrecord, hsnapshot]
    exact h.record

end Frame

/-! ## The blocks -/

section Blocks

variable {policy : GwRetryPolicy} {strtod : Strtod} {config : GwConfig}
  {channel : GwChannelConfig} {options : GwSupervisorOptions} {answers : IterationAnswers}
  {state : AttemptState}

/-- The three ends of a block: the next block, the end of the loop, and a call that has not
returned. -/
def BlockMeets (policy : GwRetryPolicy) (options : GwSupervisorOptions) (flow : AttemptFlow) :
    Prop :=
  flow.Meets (AttemptInv policy options) (AttemptLeft policy options) (AttemptWaits options)

theorem AttemptInv.next (h : AttemptInv policy options state) :
    BlockMeets policy options (.next state) := h

theorem AttemptInv.leave (h : AttemptInv policy options state) :
    BlockMeets policy options (.leave state) := h.toAttemptCore.left

/-- A stop request is recorded before the worker is stopped. -/
theorem AttemptInv.stopRequested (h : AttemptInv policy options state) :
    AttemptInv policy options (state.note [.stopRequested]) := by
  refine ⟨⟨h.shared.note trivial rfl rfl, h.phase, h.kind, h.shown, h.handle, ?_, h.notClean, ?_⟩,
    ?_⟩
  · exact fun heq => List.mem_append_left _ (h.stopSeen heq)
  · simp only [AttemptState.note, SupervisorState.note]
    rw [attempts_concat, restarts_concat]
    exact h.counted
  · intro hreceived
    simp only [AttemptState.note, SupervisorState.note]
    rw [attemptRecord_concat]
    exact h.record hreceived

/-- The worker is stopped on request. -/
theorem stopBlock_meets (h : AttemptInv policy options state) :
    BlockMeets policy options (stopBlock config options answers state) := by
  unfold stopBlock
  split
  · cases hstop : gwProcessStop state.process (stopTimeoutMs config) answers.stopProcess with
    -- the request is in the log before the stop returns
    | none => exact h.stopRequested.shared.log
    | some reply =>
      have hstarted := (gwProcessStop_effect hstop).started h.handle
      have hreply : AttemptInv policy options ({ state with process := reply.process }.note
          (.stopRequested :: reply.calls.map .system)) := by
        have hsplit : ({ state with process := reply.process } : AttemptState).note
            (.stopRequested :: reply.calls.map .system) =
              { state.note [.stopRequested] with process := reply.process }.note
                (reply.calls.map .system) := by
          simp [AttemptState.note, SupervisorState.note]
        rw [hsplit]
        exact h.stopRequested.reply hstarted reply.calls
      dsimp only
      cases reply.result with
      | error error => exact hreply.leave
      | ok value =>
        refine ⟨⟨hreply.shared, hreply.phase, hreply.kind, hreply.shown, hreply.handle, ?_,
          (by simp), hreply.counted⟩, hreply.record⟩
        intro _
        exact List.mem_append_right _ List.mem_cons_self
  · exact h.next

/-- A failing `poll` ends the attempt, unless it was interrupted. -/
theorem pollBlock_meets (h : AttemptInv policy options state) :
    BlockMeets policy options (pollBlock answers state) := by
  unfold pollBlock
  split
  · split
    · exact h.next
    · exact h.leave
  · exact h.next

/-- A completed record that is yet to be published. -/
structure RecordPending (policy : GwRetryPolicy) (options : GwSupervisorOptions)
    (state : AttemptState) : Prop extends AttemptCore policy options state where
  pending : attemptRecord state.shared.log = some state.latestProgress

/-- Publishing the record makes the invariant whole again. -/
theorem publishProgress_inv {runtime : GwChannelRuntime}
    (hshared : SupervisorInv policy options
      (state.shared.updateRuntime (ascii "progress")))
    (hruntime : state.shared.runtime = runtime) (hphase : runtime.state = .running)
    (hkind : state.shared.snapshot.processKind = .worker) (hreceived : state.receivedProgress = true)
    (hhandle : state.process.Started)
    (hstop : state.outcome = .stopRequested → .stopRequested ∈ state.shared.log)
    (hclean : state.outcome ≠ .cleanExit)
    (hcounted : attempts state.shared.log = restarts state.shared.log + 1)
    (hpending : attemptRecord state.shared.log = some state.latestProgress) :
    AttemptInv policy options (publishProgress options state) := by
  have hshown : AttemptInv policy options
      { state with
          shared :=
            { state.shared.updateRuntime (ascii "progress") with
                snapshot := gwChannelSnapshotSetProgress
                  (state.shared.updateRuntime (ascii "progress")).snapshot state.latestProgress
                  (ascii "progress") } } := by
    refine ⟨⟨hshared.withSnapshot rfl, ?_, hkind, hreceived.symm, hhandle, hstop, hclean, hcounted⟩,
      fun _ => hpending⟩
    simp only [SupervisorState.updateRuntime, hreceived, if_true]
    rw [hruntime]
    exact hphase
  exact hshown.publish

/-- A complete record: the first one of the attempt takes the channel to running, and
each is published. -/
theorem progressBlock_meets (husable : PolicyUsable config.defaults)
    (h : RecordPending config.defaults options state) :
    BlockMeets config.defaults options (progressBlock config options answers state) := by
  have hattempts : ∀ answer : ClockAnswer,
      attempts (state.shared.log ++ [.clock answer]) =
        restarts (state.shared.log ++ [.clock answer]) + 1 := by
    intro answer
    rw [attempts_concat, restarts_concat]
    exact h.counted
  unfold progressBlock
  cases answers.progressClock with
  | none =>
    have hleft : AttemptLeft config.defaults options (state.note [.clock none]) := by
      refine ⟨h.shared.clock none, h.toAttemptCore.left.phase, h.handle, ?_, h.notClean,
        hattempts none⟩
      exact fun heq => List.mem_append_left _ (h.stopSeen heq)
    exact hleft.internalError
  | some now =>
    have hshared : SupervisorInv config.defaults options (state.shared.note [.clock (some now)]) :=
      h.shared.clock (some now)
    have hrecord : attemptRecord (state.shared.log ++ [.clock (some now)]) =
        some state.latestProgress := by
      rw [attemptRecord_concat]
      exact h.pending
    have hphase := h.phase
    dsimp only
    cases hreceived : state.receivedProgress with
    -- the channel runs already
    | true =>
      rw [hreceived, if_pos rfl] at hphase
      have hdone : AttemptInv config.defaults options (publishProgress options
          { state.note [.clock (some now)] with lastProgressAt := now }) := by
        refine publishProgress_inv ⟨hshared.log, hshared.runtime, rfl, hshared.entered,
          hshared.counted⟩ rfl hphase h.kind hreceived h.handle ?_ h.notClean
          (hattempts (some now)) hrecord
        exact fun heq => List.mem_append_left _ (h.stopSeen heq)
      have hreceived' : ({ state.note [.clock (some now)] with lastProgressAt := now } :
          AttemptState).receivedProgress = true := hreceived
      rw [if_pos hreceived']
      exact hdone
    -- the first record, from starting to running
    | false =>
      rw [hreceived] at hphase
      have hstep : ChannelStep config.defaults
          (state.shared.note [.clock (some now)]).runtime .progress
          { state.shared.runtime with state := .running } := .progress (Or.inl hphase)
      have henter := hshared.enter husable hstep (fun heq => by cases heq)
        (state.shared.note [.clock (some now)]).snapshot (ascii "progress")
      have htransition := transition_ok husable hstep
      have hreceived' : ¬ ({ state.note [.clock (some now)] with lastProgressAt := now } :
          AttemptState).receivedProgress = true := by
        intro htrue
        rw [show ({ state.note [.clock (some now)] with lastProgressAt := now } :
          AttemptState).receivedProgress = state.receivedProgress from rfl, hreceived] at htrue
        cases htrue
      rw [if_neg hreceived']
      simp only [AttemptState.note, htransition]
      refine publishProgress_inv henter rfl rfl h.kind rfl h.handle ?_ h.notClean ?_ ?_
      · exact fun heq => List.mem_append_left _ (List.mem_append_left _ (h.stopSeen heq))
      · simp only [SupervisorState.note]
        rw [attempts_concat, restarts_concat]
        exact hattempts (some now)
      · simp only [SupervisorState.note]
        rw [attemptRecord_concat]
        exact hrecord

/-- What the worker prints on stdout is parsed, and a record may become complete. -/
theorem stdoutBlock_meets (husable : PolicyUsable config.defaults) {ready : Bool}
    (h : AttemptInv config.defaults options state) :
    BlockMeets config.defaults options
      (stdoutBlock strtod config options answers ready state) := by
  unfold stdoutBlock
  cases ready with
  | false => exact h.next
  | true =>
    rw [if_pos rfl]
    have hstarted := gwProcessRead_started state.process .stdout answers.stdoutRead h.handle
    have hread := h.reply hstarted (gwProcessRead state.process .stdout answers.stdoutRead).calls
    dsimp only
    cases (gwProcessRead state.process .stdout answers.stdoutRead).result with
    | error error => exact hread.leave
    | ok read =>
      dsimp only
      -- the parser and the caller's record are no part of the invariant
      generalize gwProgressParserConsume strtod _ read.data _ = consumed
      obtain ⟨call, result⟩ := consumed
      have hparsed : AttemptInv config.defaults options
          { ({ state with process :=
                (gwProcessRead state.process .stdout answers.stdoutRead).process }.note
              ((gwProcessRead state.process .stdout answers.stdoutRead).calls.map .system)) with
            parser := call.parser, latestProgress := call.progress } :=
        ⟨⟨hread.shared, hread.phase, hread.kind, hread.shown, hread.handle, hread.stopSeen,
          hread.notClean, hread.counted⟩, hread.record⟩
      cases result with
      | error error => exact hparsed.leave
      | ok value =>
        dsimp only
        split
        · refine progressBlock_meets husable ⟨⟨hparsed.shared.note trivial rfl rfl, hparsed.phase,
            hparsed.kind, hparsed.shown, hparsed.handle, ?_, hparsed.notClean, ?_⟩, ?_⟩
          · exact fun heq => List.mem_append_left _ (hparsed.stopSeen heq)
          · simp only [AttemptState.note, SupervisorState.note]
            rw [attempts_concat, restarts_concat]
            exact hparsed.counted
          · simp only [AttemptState.note, SupervisorState.note]
            rw [attemptRecord_concat]
            rfl
        · exact hparsed.next

theorem stderrBlock_meets {ready : Bool} (h : AttemptInv policy options state) :
    BlockMeets policy options (stderrBlock channel answers ready state) := by
  have hlines : ∀ {current : AttemptState} (lines : StderrLineBuffer) (printed : List Bytes),
      AttemptInv policy options current →
        AttemptInv policy options
          ({ current with stderrLines := lines }.note (printed.map .printed)) := by
    intro current lines printed hcurrent
    have hmoved : AttemptInv policy options { current with stderrLines := lines } :=
      ⟨⟨hcurrent.shared, hcurrent.phase, hcurrent.kind, hcurrent.shown, hcurrent.handle,
        hcurrent.stopSeen, hcurrent.notClean, hcurrent.counted⟩, hcurrent.record⟩
    exact hmoved.note_plain (plain_printed printed)
  unfold stderrBlock
  cases ready with
  | false => exact h.next
  | true =>
    rw [if_pos rfl]
    have hstarted := gwProcessRead_started state.process .stderr answers.stderrRead h.handle
    have hread := h.reply hstarted (gwProcessRead state.process .stderr answers.stderrRead).calls
    dsimp only
    cases (gwProcessRead state.process .stderr answers.stderrRead).result with
    | error error => exact hread.leave
    | ok read =>
      dsimp only
      split
      · exact (hlines _ _ (hlines _ _ hread)).next
      · exact (hlines _ _ hread).next

/-- The worker is reaped, or goes on. -/
theorem exitBlock_meets (h : AttemptInv policy options state) :
    BlockMeets policy options (exitBlock answers state) := by
  unfold exitBlock
  split
  · exact h.next
  · have hstarted := (gwProcessPollExit_effect state.process answers.wait).1 h.handle
    have hpoll := h.reply hstarted (gwProcessPollExit state.process answers.wait).calls
    dsimp only
    cases (gwProcessPollExit state.process answers.wait).result with
    | error error => exact hpoll.leave
    | ok exited =>
      exact ⟨⟨hpoll.shared, hpoll.phase, hpoll.kind, hpoll.shown, hpoll.handle, hpoll.stopSeen,
        hpoll.notClean, hpoll.counted⟩, hpoll.record⟩

/-- A worker that has run long enough clears the failures: a transition that keeps the
channel running. -/
theorem stableBlock_meets (husable : PolicyUsable config.defaults)
    (h : AttemptInv config.defaults options state) :
    BlockMeets config.defaults options (stableBlock config options answers state) := by
  have hclock := h.clock answers.stableClock
  unfold stableBlock
  split
  · rename_i hguard
    have hreceived : state.receivedProgress = true := hguard.2.1
    dsimp only
    split
    · have hphase : state.shared.runtime.state = .running := by
        rw [h.phase, hreceived, if_pos rfl]
      have hstep : ChannelStep config.defaults (state.note [.clock answers.stableClock]).shared.runtime
          .stable { state.shared.runtime with consecutiveFailures := 0, backoffSec := 0 } :=
        .stable hphase
      have henter := hclock.shared.enter husable hstep (fun heq => by cases heq)
        (state.note [.clock answers.stableClock]).shared.snapshot (ascii "stable")
      rw [transition_ok husable hstep]
      have hstable : AttemptInv config.defaults options
          { state.note [.clock answers.stableClock] with
            shared := SupervisorState.updateRuntime (ascii "stable")
              ⟨{ state.shared.runtime with consecutiveFailures := 0, backoffSec := 0 },
                (state.note [.clock answers.stableClock]).shared.snapshot,
                (state.note [.clock answers.stableClock]).shared.log ++
                  [.transition .stable (.ok ())
                    { state.shared.runtime with consecutiveFailures := 0, backoffSec := 0 }]⟩
            stableReported := true } := by
        refine ⟨⟨henter, hclock.phase, hclock.kind, hclock.shown, hclock.handle, ?_,
          hclock.notClean, ?_⟩, ?_⟩
        · exact fun heq => List.mem_append_left _ (hclock.stopSeen heq)
        · simp only [SupervisorState.updateRuntime]
          rw [attempts_concat, restarts_concat]
          exact hclock.counted
        · intro _
          simp only [SupervisorState.updateRuntime]
          rw [attemptRecord_concat]
          exact hclock.record hreceived
      exact hstable.publish
    · exact hclock.next
  · exact h.next

/-- A timeout is neither a stop nor a clean exit. -/
theorem timeoutOutcome_plain (config : GwConfig) (answers : IterationAnswers)
    (state : AttemptState) :
    timeoutOutcome config answers state ≠ .stopRequested ∧
      timeoutOutcome config answers state ≠ .cleanExit := by
  unfold timeoutOutcome
  split <;> split <;> simp

/-- A worker that starts too slowly or makes no progress is stopped. -/
theorem timeoutBlock_meets (h : AttemptInv policy options state) :
    BlockMeets policy options (timeoutBlock config answers state) := by
  have hclock := h.clock answers.timeoutClock
  have hplain := timeoutOutcome_plain config answers state
  unfold timeoutBlock
  split
  · dsimp only
    split
    · cases hstop : gwProcessStop (state.note [.clock answers.timeoutClock]).process
          (stopTimeoutMs config) answers.timeoutStop with
      | none => exact hclock.shared.log
      | some reply =>
        have hstarted := (gwProcessStop_effect hstop).started hclock.handle
        have hreply := hclock.reply hstarted reply.calls
        dsimp only
        cases reply.result with
        | error error => exact hreply.toAttemptCore.left.internalError
        | ok value =>
          exact ⟨⟨hreply.shared, hreply.phase, hreply.kind, hreply.shown, hreply.handle,
            fun heq => absurd heq hplain.1, hplain.2, hreply.counted⟩, hreply.record⟩
    · exact hclock.next
  · exact h.next

/-! ## The loop and the attempt -/

/-- One iteration keeps the invariant. -/
theorem attemptIteration_meets (husable : PolicyUsable config.defaults)
    (h : AttemptInv config.defaults options state) :
    BlockMeets config.defaults options
      (attemptIteration strtod config channel options answers state) := by
  refine (stopBlock_meets h).bind fun state h => ?_
  refine (pollBlock_meets h).bind fun state h => ?_
  refine (stdoutBlock_meets husable h).bind fun state h => ?_
  refine (stderrBlock_meets h).bind fun state h => ?_
  refine (exitBlock_meets h).bind fun state h => ?_
  refine (stableBlock_meets husable h).bind fun state h => ?_
  exact timeoutBlock_meets h

/-- The loop, by the rule for `Flow.loop`: it ends by a break, or when the worker is reaped
and its pipes are closed. -/
theorem attemptLoop_meets (husable : PolicyUsable config.defaults)
    (h : AttemptInv config.defaults options state) (iterations : List IterationAnswers) :
    (attemptLoop strtod config channel options iterations state).Meets (fun _ => False)
      (AttemptLeft config.defaults options) (AttemptWaits options) := by
  refine Flow.loop_meets (AttemptInv config.defaults options) ?_ ?_ ?_ iterations h
  · intro answers state hstate _
    exact attemptIteration_meets husable hstate
  · intro state result hstate hdone
    rw [attemptDone_eq hdone]
    exact hstate.toAttemptCore.left
  · exact fun state hstate _ => hstate.shared.log

end Blocks

/-- What holds when an attempt has returned. -/
structure AttemptReturned (policy : GwRetryPolicy) (options : GwSupervisorOptions)
    (run : WorkerAttemptResult × SupervisorState) : Prop where
  shared : SupervisorInv policy options run.2
  phase : run.2.runtime.state = .starting ∨ run.2.runtime.state = .running
  outcome : EventRight options run.2.log (.attemptEnded run.1.outcome run.1.exitCode)
  counted : attempts run.2.log = restarts run.2.log + 1

/-- The ends of an attempt for its caller. -/
def AttemptRunMeets {ρ : Type} (policy : GwRetryPolicy) (options : GwSupervisorOptions)
    (run : AttemptRun ρ) : Prop :=
  run.Meets (AttemptReturned policy options) (fun _ => False) fun state => LogInv options state.log

section Attempt

variable {ρ : Type} {policy : GwRetryPolicy} {strtod : Strtod} {config : GwConfig}
  {channel : GwChannelConfig} {options : GwSupervisorOptions} {state : AttemptState}

/-- The exit code and the outcome are never pending: a worker that is not reaped
still runs, and closing its handle fails. -/
theorem closeAttempt_meets (h : AttemptLeft policy options state) :
    AttemptRunMeets policy options (closeAttempt options state : AttemptRun ρ) := by
  obtain ⟨hshared, hsame⟩ :=
    h.shared.note_plain (plain_system (gwProcessClose state.process).calls)
  have hcounted := h.counted
  rw [← hsame.attempts, ← hsame.restarts] at hcounted
  have hgrows : ∀ {event}, event ∈ state.shared.log →
      event ∈ (state.shared.note ((gwProcessClose state.process).calls.map .system)).log :=
    fun hmem => List.mem_append_left _ hmem
  have hhandle := h.handle
  unfold GwProcess.Started at hhandle
  unfold closeAttempt
  cases hreaped : state.process.reaped with
  | false =>
    have hrunning : state.process.running = true := by rw [hhandle, hreaped]; rfl
    have hclose : (gwProcessClose state.process).result =
        .error (gwErrorSet .errValidation (ascii "cannot close a running worker process")) := by
      unfold gwProcessClose
      rw [if_pos hrunning]
    simp only [hclose]
    exact ⟨hshared, h.phase, ⟨by simp, by simp, by simp⟩, hcounted⟩
  | true =>
    have hrunning : state.process.running = false := by rw [hhandle, hreaped]; rfl
    have hclose : (gwProcessClose state.process).result = .ok () := by
      unfold gwProcessClose
      rw [if_neg (by rw [hrunning]; decide)]
    simp only [hclose, if_true, true_and]
    refine ⟨hshared, h.phase, ?_, hcounted⟩
    by_cases hpending : state.outcome = .pending
    · rw [if_pos hpending]
      split
      · rename_i hclean
        exact ⟨by simp, fun _ => ⟨hclean.2, hclean.1⟩, by simp⟩
      · exact ⟨by simp, by simp, by simp⟩
    · rw [if_neg hpending]
      exact ⟨hpending, fun heq => absurd heq h.notClean, fun heq => hgrows (h.stopSeen heq)⟩

/-- A worker that still runs behind the loop is stopped, and then the handle is closed. -/
theorem finishAttempt_meets {cleanup : StopAnswers} (h : AttemptLeft policy options state) :
    AttemptRunMeets policy options (finishAttempt config options cleanup state : AttemptRun ρ) := by
  unfold finishAttempt
  split
  · cases hstop : gwProcessStop state.process (stopTimeoutMs config) cleanup with
    | none => exact h.shared.log
    | some reply =>
      obtain ⟨hshared, hsame⟩ := h.shared.note_plain (plain_system reply.calls)
      have hcounted := h.counted
      rw [← hsame.attempts, ← hsame.restarts] at hcounted
      exact closeAttempt_meets ⟨hshared, h.phase, (gwProcessStop_effect hstop).started h.handle,
        fun heq => List.mem_append_left _ (h.stopSeen heq), h.notClean, hcounted⟩
  · exact closeAttempt_meets h

/-- What holds when an attempt begins. -/
structure AttemptBegins (policy : GwRetryPolicy) (options : GwSupervisorOptions)
    (state : SupervisorState) : Prop where
  shared : SupervisorInv policy options state
  phase : state.runtime.state = .starting
  kind : state.snapshot.processKind = .none
  counted : attempts state.log = restarts state.log + 1

theorem AttemptBegins.note_plain {state : SupervisorState} (h : AttemptBegins policy options state)
    {events : List SupervisorEvent} (hplain : ∀ event ∈ events, event.isPlain = true) :
    AttemptBegins policy options (state.note events) := by
  obtain ⟨hshared, hsame⟩ := h.shared.note_plain hplain
  have hcounted := h.counted
  rw [← hsame.attempts, ← hsame.restarts] at hcounted
  exact ⟨hshared, h.phase, h.kind, hcounted⟩

theorem AttemptBegins.clock {state : SupervisorState} (h : AttemptBegins policy options state)
    (answer : ClockAnswer) : AttemptBegins policy options (state.note [.clock answer]) := by
  refine ⟨h.shared.clock answer, h.phase, h.kind, ?_⟩
  simp only [SupervisorState.note]
  rw [attempts_concat, restarts_concat]
  exact h.counted

/-- A failure before the loop. -/
theorem AttemptBegins.failed {state : SupervisorState} (h : AttemptBegins policy options state)
    {outcome : WorkerAttemptOutcome}
    (houtcome : outcome = .internalError ∨ outcome = .workerFailure) :
    AttemptReturned policy options (failedAttempt outcome, state) := by
  refine ⟨h.shared, Or.inl h.phase, ?_, h.counted⟩
  rcases houtcome with rfl | rfl
  · exact ⟨by simp [failedAttempt], by simp [failedAttempt], by simp [failedAttempt]⟩
  · exact ⟨by simp [failedAttempt], by simp [failedAttempt], by simp [failedAttempt]⟩

/-- The loop starts in its invariant. -/
theorem attemptStart_inv {state : SupervisorState} (h : AttemptBegins policy options state)
    {process : GwProcess} (hstarted : process.Started) (now : Timespec) :
    AttemptInv policy options (attemptStart options process now state) := by
  have hshown : AttemptInv policy options
      { attemptStart options process now state with
        shared :=
          { state with
              snapshot := gwChannelSnapshotSetProcess state.snapshot .worker process.pid
                (ascii "worker_started") } } := by
    refine ⟨⟨h.shared.withSnapshot (setProcess_runtime _ _ _ _), h.phase, rfl, ?_, hstarted,
      (by simp [attemptStart]), (by simp [attemptStart]), h.counted⟩, (by simp [attemptStart])⟩
    exact setProcess_worker_hasProgress _ _ _ h.kind
  exact hshown.publish

/-- A started worker is supervised to its end, or stopped at once when the clock fails. -/
theorem superviseWorker_meets (husable : PolicyUsable config.defaults) {answers : AttemptAnswers}
    {process : GwProcess} {state : SupervisorState} (hstarted : process.Started)
    (h : AttemptBegins config.defaults options state) :
    AttemptRunMeets config.defaults options
      (superviseWorker strtod config channel options answers process state : AttemptRun ρ) := by
  unfold superviseWorker
  cases answers.startedClock with
  | none =>
    dsimp only
    cases gwProcessStop process (stopTimeoutMs config) answers.startedStop with
    | none => exact (h.clock none).shared.log
    | some reply =>
      have hsplit : state.note (.clock none :: reply.calls.map .system) =
          (state.note [.clock none]).note (reply.calls.map .system) := by
        simp [SupervisorState.note]
      dsimp only
      rw [hsplit]
      exact (((h.clock none).note_plain (plain_system _)).note_plain (plain_system _)).failed
        (Or.inl rfl)
  | some now =>
    have hloop := @attemptLoop_meets strtod config channel options _ husable
      (attemptStart_inv (h.clock (some now)) hstarted now) answers.iterations
    dsimp only
    cases hrun : attemptLoop strtod config channel options answers.iterations
        (attemptStart options process now (state.note [.clock (some now)])) with
    | next state =>
      rw [hrun] at hloop
      exact False.elim hloop
    | leave state =>
      rw [hrun] at hloop
      exact finishAttempt_meets hloop
    | blocked state =>
      rw [hrun] at hloop
      exact hloop

/-- One attempt: it fails before it has a worker, or supervises one. -/
theorem runWorkerAttempt_meets (husable : PolicyUsable config.defaults) {answers : AttemptAnswers}
    {state : SupervisorState} (h : AttemptBegins config.defaults options state) :
    AttemptRunMeets config.defaults options
      (runWorkerAttempt strtod config channel options answers state : AttemptRun ρ) := by
  unfold runWorkerAttempt
  cases gwPipelineBuild answers.allocator channel config.mediamtx options.ffmpegBinary with
  | error error => exact h.failed (Or.inl rfl)
  | ok arguments =>
    have hcalls := h.note_plain
      (plain_system (gwProcessStart gwProcessInit arguments answers.start).calls)
    dsimp only
    cases hstart : (gwProcessStart gwProcessInit arguments answers.start).result with
    | error error => exact hcalls.failed (Or.inr rfl)
    | ok value => exact superviseWorker_meets husable (gwProcessStart_started hstart) hcalls

end Attempt

end LearnApue.Gateway
