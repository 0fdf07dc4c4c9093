import LearnApue.Gateway.AttemptInvariant

set_option autoImplicit false

/-!
# Gateway: what holds in every run of a supervisor

The rounds of `gw_supervisor_run` keep `RoundInv`: an attempt, what its end shows,
and either a return or a backoff wait that makes the next attempt the next restart.
-/

namespace LearnApue.Gateway

open LearnApue.Foundation

/-! ## Between two attempts -/

/-- No worker is shown. -/
structure GwChannelSnapshot.Idle (snapshot : GwChannelSnapshot) : Prop where
  kind : snapshot.processKind = .none
  pid : snapshot.processPid = -1

/-- An idle snapshot is right when a retrying one shows an exit and no progress. -/
theorem GwChannelSnapshot.Idle.shape {snapshot : GwChannelSnapshot} (h : snapshot.Idle)
    (past : List SupervisorEvent)
    (hretrying : snapshot.state = .backoff ∨ snapshot.state = .failed →
      snapshot.hasProgress = false ∧ snapshot.hasExitCode = true) :
    SnapshotShape past snapshot := by
  refine ⟨?_, fun _ => ⟨h.kind, h.pid⟩, hretrying⟩
  intro hworker
  rw [h.kind] at hworker
  cases hworker

/-- What a step that is neither a transition nor an attempt leaves as it was. -/
structure Continues (state later : SupervisorState) : Prop where
  runtime : later.runtime = state.runtime
  snapshot : later.snapshot = state.snapshot
  restarts : restarts later.log = restarts state.log
  attempts : attempts later.log = attempts state.log
  grows : ∀ event ∈ state.log, event ∈ later.log

theorem Continues.trans {first second third : SupervisorState} (h : Continues first second)
    (hnext : Continues second third) : Continues first third :=
  ⟨hnext.runtime.trans h.runtime, hnext.snapshot.trans h.snapshot,
    hnext.restarts.trans h.restarts, hnext.attempts.trans h.attempts,
    fun event hmem => hnext.grows event (h.grows event hmem)⟩

theorem Continues.note {event : SupervisorEvent} (state : SupervisorState)
    (hrestart : event.isRestart = false) (hattempt : event.isAttempt = false) :
    Continues state (state.note [event]) := by
  refine ⟨rfl, rfl, ?_, ?_, fun _ hmem => List.mem_append_left _ hmem⟩
  · simp only [SupervisorState.note, restarts_concat, hrestart]
    rfl
  · simp only [SupervisorState.note, attempts_concat, hattempt]
    rfl

theorem Continues.publish (options : GwSupervisorOptions) (state : SupervisorState) :
    Continues state (state.publish options) := by
  obtain ⟨hruntime, hsnapshot, hrestarts, hattempts, -, hgrows⟩ := publish_frame options state
  exact ⟨hruntime, hsnapshot, hrestarts, hattempts, hgrows⟩

/-! ## Transitions of the supervisor -/

section Enter

variable {policy : GwRetryPolicy} {options : GwSupervisorOptions} {state : SupervisorState}

/-- What holds when a transition has been made and published. -/
structure Entered (policy : GwRetryPolicy) (options : GwSupervisorOptions)
    (state : SupervisorState) (event : GwChannelEvent) (next : GwChannelRuntime)
    (later : SupervisorState) : Prop where
  shared : SupervisorInv policy options later
  runtime : later.runtime = next
  idle : later.snapshot.Idle
  restarts : restarts later.log = restarts state.log + if event = .backoffElapsed then 1 else 0
  attempts : attempts later.log = attempts state.log
  grows : ∀ event ∈ state.log, event ∈ later.log

/-- A transition that the state machine accepts. -/
theorem enterState_next (husable : PolicyUsable policy) (hlog : LogInv options state.log)
    (hruntime : RuntimeInvariant policy state.runtime)
    (hcounted : state.runtime.totalRestarts = restarts state.log % 2 ^ 64)
    {event : GwChannelEvent} {next : GwChannelRuntime}
    (hstep : ChannelStep policy state.runtime event next)
    (htimed : event = .backoffElapsed → ClockMonotone state.log →
      ((restarts state.log : Int) + 1) * 1000000000 ≤ lastReading state.log)
    (label : Bytes) (prepare : GwChannelSnapshot → GwChannelSnapshot)
    (hidle : (prepare state.snapshot).Idle)
    (hretrying : next.state = .backoff ∨ next.state = .failed →
      (prepare state.snapshot).hasProgress = false ∧ (prepare state.snapshot).hasExitCode = true) :
    ∃ later, enterState policy options event label prepare state = .next ((), later) ∧
      Entered policy options state event next later := by
  have hentered := enter_inv husable hlog hruntime hcounted hstep htimed
    (prepare state.snapshot) label
  have hshown : GwChannelSnapshot.Idle
      (gwChannelSnapshotUpdateRuntime (prepare state.snapshot) next label) :=
    ⟨hidle.kind, hidle.pid⟩
  have hpublished := hentered.publish (hshown.shape _ hretrying)
  have hsame := Continues.publish options (SupervisorState.updateRuntime label
    ⟨next, prepare state.snapshot, state.log ++ [.transition event (.ok ()) next]⟩)
  refine ⟨_, ?_, hpublished, hsame.runtime, ?_, ?_, ?_, ?_⟩
  · unfold enterState
    rw [transition_ok husable hstep]
  · rw [hsame.snapshot]
    exact hshown
  · rw [hsame.restarts]
    exact restarts_transition _ _ _
  · rw [hsame.attempts]
    exact attempts_concat _ _
  · intro earlier hmem
    exact hsame.grows _ (List.mem_append_left _ hmem)

end Enter

/-! ## The backoff wait -/

section Backoff

variable {policy : GwRetryPolicy} {options : GwSupervisorOptions}

/-- What holds when a backoff wait has ended. -/
structure BackoffEnded (policy : GwRetryPolicy) (options : GwSupervisorOptions)
    (state : SupervisorState) (result : Bool × SupervisorState) : Prop where
  shared : SupervisorInv policy options result.2
  continues : Continues state result.2
  waited : result.1 = true → ClockMonotone result.2.log →
    ((restarts state.log : Int) + 1) * 1000000000 ≤ lastReading result.2.log
  stopped : result.1 = false → ClockReadsSucceed result.2.log → .stopRequested ∈ result.2.log

/-- The three ends of a backoff wait, which never returns from the supervisor. -/
def BackoffMeets (policy : GwRetryPolicy) (options : GwSupervisorOptions)
    (state : SupervisorState) (flow : SupervisorFlow Bool) : Prop :=
  flow.Meets (BackoffEnded policy options state) (fun _ => False)
    fun later => LogInv options later.log

/-- The wait that starts at a time no earlier than the restarts so far. -/
theorem backoffWait_meets {backoffSec : Int} (hpositive : 1 ≤ backoffSec) (startedAt : Timespec)
    (rounds : List (ClockAnswer × StopSources)) {state : SupervisorState}
    (h : SupervisorInv policy options state)
    (hstart : ClockMonotone state.log →
      (restarts state.log : Int) * 1000000000 ≤ startedAt.nanoseconds) :
    BackoffMeets policy options state (backoffWait options backoffSec startedAt rounds state) := by
  induction rounds generalizing state with
  | nil => exact h.log
  | cons round rest ih =>
    obtain ⟨clock, sources⟩ := round
    have hclock := h.clock clock
    have hread : Continues state (state.note [.clock clock]) := .note state rfl rfl
    have hbefore : ClockMonotone (state.note [.clock clock]).log →
        (restarts state.log : Int) * 1000000000 ≤ startedAt.nanoseconds :=
      fun hmonotone => hstart (clockMonotone_of_append hmonotone)
    rw [backoffWait]
    by_cases helapsed : timeoutElapsed startedAt clock backoffSec = true
    · rw [if_pos helapsed]
      refine ⟨hclock, hread, ?_, fun h => by cases h⟩
      intro _ hmonotone
      cases clock with
      | none => simp [timeoutElapsed] at helapsed
      | some now =>
        have hpassed := (elapsed_iff _ _ _).mp helapsed
        have hrestarts := hbefore hmonotone
        simp only [SupervisorState.note]
        rw [lastReading_concat_clock]
        omega
    · rw [if_neg helapsed]
      by_cases hstop : stopSignalValue options sources ≠ 0
      · rw [if_pos hstop]
        refine ⟨hclock.note trivial rfl rfl, hread.trans (.note _ rfl rfl), (fun h => by cases h), ?_⟩
        intro _ _
        exact List.mem_append_right _ List.mem_cons_self
      · rw [if_neg hstop]
        have hrest := ih hclock (fun hmonotone => by
          rw [hread.restarts]
          exact hbefore hmonotone)
        refine hrest.mono ?_ (fun _ h => h) (fun _ h => h)
        intro result hended
        refine ⟨hended.shared, hread.trans hended.continues, ?_, hended.stopped⟩
        rw [← hread.restarts]
        exact hended.waited

theorem waitForBackoff_meets {backoffSec : Int} (hpositive : 1 ≤ backoffSec)
    (answers : BackoffAnswers) {state : SupervisorState} (h : SupervisorInv policy options state) :
    BackoffMeets policy options state (waitForBackoff options backoffSec answers state) := by
  unfold waitForBackoff
  cases answers.startClock with
  | none =>
    refine ⟨h.clock none, .note state rfl rfl, (fun h => by cases h), ?_⟩
    intro _ hsucceed
    have hread := hsucceed (.clock none) (List.mem_append_right _ List.mem_cons_self)
    simp [SupervisorEvent.isFailedRead] at hread
  | some startedAt =>
    have hread : Continues state (state.note [.clock (some startedAt)]) := .note state rfl rfl
    have hwait := backoffWait_meets hpositive startedAt answers.rounds
      (h.clock (some startedAt)) (fun hmonotone => by
        have htimed := (h.clock (some startedAt)).log.timed hmonotone
        simp only [SupervisorState.note] at htimed ⊢
        rw [lastReading_concat_clock] at htimed
        exact htimed)
    refine hwait.mono ?_ (fun _ h => h) (fun _ h => h)
    intro result hended
    refine ⟨hended.shared, hread.trans hended.continues, ?_, hended.stopped⟩
    rw [← hread.restarts]
    exact hended.waited

end Backoff

/-! ## One round -/

section Round

variable {policy : GwRetryPolicy} {options : GwSupervisorOptions}

/-- Why a supervisor stops. -/
def StopReason (options : GwSupervisorOptions) (log : List SupervisorEvent) : Prop :=
  .stopRequested ∈ log ∨
    (options.stopOnCleanExit = true ∧ .attemptEnded .cleanExit 0 ∈ log)

/-- What holds at the top of the supervisor's loop. -/
structure RoundInv (policy : GwRetryPolicy) (options : GwSupervisorOptions)
    (state : SupervisorState) : Prop where
  shared : SupervisorInv policy options state
  phase : state.runtime.state = .starting
  idle : state.snapshot.Idle
  counted : attempts state.log = restarts state.log

/-- What holds when the supervisor has returned. -/
structure RunReturned (options : GwSupervisorOptions) (result : Int × SupervisorState) : Prop where
  log : LogInv options result.2.log
  ending :
    (result.1 = 0 ∧ result.2.runtime.state = .stopped ∧
        (ClockReadsSucceed result.2.log → StopReason options result.2.log)) ∨
      (result.1 = 1 ∧ result.2.runtime.state = .failed ∧ options.exitOnRetryExhaustion = true)

/-- The three ends of a piece of the supervisor. -/
def RoundMeets {α : Type} (options : GwSupervisorOptions) (after : α × SupervisorState → Prop)
    (flow : SupervisorFlow α) : Prop :=
  flow.Meets after (RunReturned options) fun state => LogInv options state.log

/-- What holds once an attempt's end has been published. -/
structure AttemptShown (policy : GwRetryPolicy) (options : GwSupervisorOptions)
    (state : SupervisorState) : Prop where
  shared : SupervisorInv policy options state
  phase : state.runtime.state = .starting ∨ state.runtime.state = .running
  idle : state.snapshot.Idle
  exitCode : state.snapshot.hasExitCode = true
  counted : attempts state.log = restarts state.log + 1

/-- What holds while a failed channel waits. -/
structure Retrying (policy : GwRetryPolicy) (options : GwSupervisorOptions)
    (state : SupervisorState) : Prop where
  shared : SupervisorInv policy options state
  phase : state.runtime.state = .backoff ∨ state.runtime.state = .failed
  idle : state.snapshot.Idle
  counted : attempts state.log = restarts state.log + 1

/-- The snapshot that an attempt's end shows: idle, with an exit code. -/
theorem showAttempt_eq (options : GwSupervisorOptions) (result : WorkerAttemptResult) (state : SupervisorState) :
    ∃ shown : GwChannelSnapshot,
      showAttempt options result state = SupervisorState.publish options
        { state with snapshot := shown } ∧
      shown.Idle ∧ shown.hasExitCode = true ∧ shown.runtime = state.snapshot.runtime := by
  unfold showAttempt
  by_cases hprogress : result.progress.status.bytes ≠ []
  · simp only [if_pos hprogress]
    exact ⟨_, rfl, ⟨rfl, rfl⟩, rfl, rfl⟩
  · simp only [if_neg hprogress]
    exact ⟨_, rfl, ⟨rfl, rfl⟩, rfl, rfl⟩

theorem showAttempt_shown (result : WorkerAttemptResult) {state : SupervisorState}
    (h : SupervisorInv policy options state)
    (hphase : state.runtime.state = .starting ∨ state.runtime.state = .running)
    (hcounted : attempts state.log = restarts state.log + 1) :
    AttemptShown policy options (showAttempt options result state) ∧
      ∀ event ∈ state.log, event ∈ (showAttempt options result state).log := by
  obtain ⟨shown, heq, hidle, hexit, hruntime⟩ := showAttempt_eq options result state
  have hstate : shown.state = state.runtime.state := by
    rw [← h.shown, ← hruntime]
    rfl
  have hquiet : ¬ (shown.state = .backoff ∨ shown.state = .failed) := by
    rw [hstate]
    rcases hphase with hphase | hphase <;> rw [hphase] <;> simp
  have hpublished := (h.withSnapshot hruntime).publish
    (hidle.shape _ fun hretrying => absurd hretrying hquiet)
  have hsame := Continues.publish options ({ state with snapshot := shown } : SupervisorState)
  rw [heq]
  refine ⟨⟨hpublished, ?_, ?_, ?_, ?_⟩, hsame.grows⟩
  · rw [hsame.runtime]
    exact hphase
  · rw [hsame.snapshot]
    exact hidle
  · rw [hsame.snapshot]
    exact hexit
  · rw [hsame.attempts, hsame.restarts]
    exact hcounted

/-- Stopping: the transition is accepted, and the supervisor returns zero. -/
theorem stopAndReturn_meets (husable : PolicyUsable policy) {state : SupervisorState}
    (h : SupervisorInv policy options state) (hidle : state.snapshot.Idle)
    (henabled : state.runtime.state ≠ .disabled)
    (hreason : ClockReadsSucceed state.log → StopReason options state.log) (label : Bytes)
    {α : Type} (after : α × SupervisorState → Prop) :
    RoundMeets options after
      ((enterState policy options .stop label id state).bind fun (_, state) =>
        .leave (0, state)) := by
  obtain ⟨later, heq, hentered⟩ := enterState_next husable h.log h.runtime h.counted
    (.stop henabled) (fun heq => by cases heq) label id hidle (by simp)
  rw [heq]
  refine ⟨hentered.shared.log, Or.inl ⟨rfl, ?_, ?_⟩⟩
  · simp only [hentered.runtime]
  · intro hsucceed
    rcases hreason (fun event hmem => hsucceed event (hentered.grows _ hmem)) with hstop | ⟨hclean, hended⟩
    · exact Or.inl (hentered.grows _ hstop)
    · exact Or.inr ⟨hclean, hentered.grows _ hended⟩

/-- A failed channel waits at least a second. -/
theorem Retrying.backoff_pos (husable : PolicyUsable policy) {state : SupervisorState}
    (h : Retrying policy options state) : 1 ≤ state.runtime.backoffSec := by
  have hmax := husable.2
  rcases h.phase with hstate | hstate
  · obtain ⟨-, -, hbackoff⟩ := h.shared.runtime.waiting hstate
    have hpower : (1 : Int) ≤ 2 ^ (state.runtime.consecutiveFailures - 1) :=
      one_le_pow₀ (by norm_num)
    omega
  · have hbackoff := (h.shared.runtime.failed hstate).2
    omega

/-- The wait makes the next attempt the next restart, or the supervisor stops. -/
theorem retryRound_meets (husable : PolicyUsable policy) (answers : BackoffAnswers)
    {state : SupervisorState} (h : Retrying policy options state) :
    RoundMeets options (fun result => RoundInv policy options result.2)
      (retryRound policy options answers state) := by
  unfold retryRound
  have hwait := waitForBackoff_meets (h.backoff_pos husable) answers h.shared
  cases hrun : waitForBackoff options state.runtime.backoffSec answers state with
  | leave result =>
    rw [hrun] at hwait
    exact False.elim hwait
  | blocked later =>
    rw [hrun] at hwait
    exact hwait
  | next result =>
    obtain ⟨waited, later⟩ := result
    rw [hrun] at hwait
    obtain ⟨hshared, hsame, hwaited, hstopped⟩ := hwait
    rw [Flow.bind_next]
    have hphase : later.runtime.state = .backoff ∨ later.runtime.state = .failed := by
      rw [hsame.runtime]
      exact h.phase
    have hidle : later.snapshot.Idle := by
      rw [hsame.snapshot]
      exact h.idle
    cases waited with
    | true =>
      obtain ⟨entered, heq, hentered⟩ := enterState_next husable hshared.log hshared.runtime
        hshared.counted (.backoffElapsed hphase) (fun _ hmonotone => by
          rw [hsame.restarts]
          exact hwaited rfl hmonotone)
        (ascii "backoff_elapsed") id hidle (by simp)
      simp only [if_true]
      rw [heq]
      refine ⟨hentered.shared, ?_, hentered.idle, ?_⟩
      · simp only [hentered.runtime]
      · simp only [hentered.attempts, hentered.restarts, hsame.attempts, hsame.restarts,
          h.counted, if_true]
    | false =>
      have henabled : later.runtime.state ≠ .disabled := by
        rcases hphase with hphase | hphase <;> rw [hphase] <;> simp
      exact stopAndReturn_meets husable hshared hidle henabled
        (fun hsucceed => Or.inl (hstopped rfl hsucceed)) _ _

/-- A failure of a live channel is accepted, and makes it wait or give up. -/
theorem failure_accepted (policy : GwRetryPolicy) {runtime : GwChannelRuntime}
    (h : runtime.state = .starting ∨ runtime.state = .running) :
    ∃ next, ChannelStep policy runtime .failure next ∧
      (next.state = .backoff ∨ next.state = .failed) := by
  by_cases hle : countFailure runtime.consecutiveFailures ≤ policy.maxRetries.toNat
  · exact ⟨_, .retry h hle, Or.inl rfl⟩
  · exact ⟨_, .exhausted h (by omega), Or.inr rfl⟩

/-- From an attempt's end to the next attempt. -/
theorem afterAttempt_meets (husable : PolicyUsable policy) (answers : BackoffAnswers)
    {run : WorkerAttemptResult × SupervisorState} (h : AttemptReturned policy options run) :
    RoundMeets options (fun result => RoundInv policy options result.2)
      (afterAttempt policy options answers run.1
        (run.2.note [.attemptEnded run.1.outcome run.1.exitCode])) := by
  obtain ⟨result, state⟩ := run
  have hended : SupervisorInv policy options
      (state.note [.attemptEnded result.outcome result.exitCode]) :=
    h.shared.note h.outcome rfl rfl
  have hcounted : attempts (state.note [.attemptEnded result.outcome result.exitCode]).log =
      restarts (state.note [.attemptEnded result.outcome result.exitCode]).log + 1 := by
    simp only [SupervisorState.note]
    rw [attempts_concat, restarts_concat]
    exact h.counted
  obtain ⟨hshown, hgrows⟩ := showAttempt_shown result hended h.phase hcounted
  unfold afterAttempt
  dsimp only
  generalize showAttempt options result
    (state.note [.attemptEnded result.outcome result.exitCode]) = later at hshown hgrows ⊢
  have henabled : later.runtime.state ≠ .disabled := by
    rcases hshown.phase with hphase | hphase <;> rw [hphase] <;> simp
  by_cases hfinal : result.outcome = .cleanExit ∨ result.outcome = .stopRequested
  · rw [if_pos hfinal]
    refine stopAndReturn_meets husable hshown.shared hshown.idle henabled (fun _ => ?_) _ _
    rcases hfinal with hclean | hstop
    · obtain ⟨hoption, hcode⟩ := h.outcome.2.1 hclean
      refine Or.inr ⟨hoption, hgrows _ (List.mem_append_right _ ?_)⟩
      rw [List.mem_singleton, hclean, hcode]
    · exact Or.inl (hgrows _ (List.mem_append_left _ (h.outcome.2.2 hstop)))
  · rw [if_neg hfinal]
    obtain ⟨next, hstep, hnext⟩ := failure_accepted policy hshown.phase
    obtain ⟨failed, heq, hentered⟩ := enterState_next husable hshown.shared.log
      hshown.shared.runtime hshown.shared.counted hstep (fun heq => by cases heq)
      (attemptEventString result.outcome) gwChannelSnapshotClearLiveData
      ⟨hshown.idle.kind, hshown.idle.pid⟩ (fun _ => ⟨rfl, hshown.exitCode⟩)
    rw [heq, Flow.bind_next]
    have hretrying : Retrying policy options failed := by
      refine ⟨hentered.shared, ?_, hentered.idle, ?_⟩
      · rw [hentered.runtime]
        exact hnext
      · rw [hentered.attempts, hentered.restarts, hshown.counted]
        rfl
    dsimp only
    split
    · rename_i hexhausted
      exact ⟨hentered.shared.log, Or.inr ⟨rfl, hexhausted.1, hexhausted.2⟩⟩
    · exact retryRound_meets husable answers hretrying

end Round

/-! ## Whole runs -/

section Run

variable {strtod : Strtod} {config : GwConfig} {channel : GwChannelConfig}
  {options : GwSupervisorOptions}

/-- The three ends of the supervisor's loop body and of its loop. -/
def RunMeets (options : GwSupervisorOptions) (after : SupervisorState → Prop)
    (flow : Flow SupervisorState (Int × SupervisorState) SupervisorState) : Prop :=
  flow.Meets after (RunReturned options) fun state => LogInv options state.log

/-- An attempt begins at the top of the loop. -/
theorem RoundInv.begins {policy : GwRetryPolicy} {state : SupervisorState}
    (h : RoundInv policy options state) :
    AttemptBegins policy options (state.note [.attemptStarted state.runtime]) := by
  have hright : EventRight options state.log (.attemptStarted state.runtime) :=
    ⟨h.phase, h.shared.counted.trans (by rw [h.counted]), h.counted⟩
  refine ⟨h.shared.note hright rfl rfl, h.phase, h.idle.kind, ?_⟩
  simp only [SupervisorState.note]
  rw [attempts_concat, restarts_concat, h.counted]
  rfl

/-- One round keeps the invariant. -/
theorem supervisorRound_meets (husable : PolicyUsable config.defaults) (answers : RoundAnswers)
    {state : SupervisorState} (h : RoundInv config.defaults options state) :
    RunMeets options (RoundInv config.defaults options)
      (supervisorRound strtod config channel options answers state) := by
  have hattempt := @runWorkerAttempt_meets (Int × SupervisorState) strtod config channel options
    husable answers.attempt _ h.begins
  unfold supervisorRound
  dsimp only
  cases hrun : runWorkerAttempt strtod config channel options answers.attempt
      (state.note [.attemptStarted state.runtime]) with
  | leave result =>
    rw [hrun] at hattempt
    exact False.elim hattempt
  | blocked later =>
    rw [hrun] at hattempt
    exact hattempt
  | next run =>
    rw [hrun] at hattempt
    rw [Flow.bind_next]
    exact Flow.Meets.bind (afterAttempt_meets husable answers.backoff hattempt)
      fun result hnext => hnext

/-- The supervisor of an enabled channel enters its loop. -/
theorem gwSupervisorRun_loop (strtod : Strtod) (husable : PolicyUsable config.defaults)
    (henabled : channel.enabled = true) (hbinary : options.ffmpegBinary.getD [] ≠ [])
    (rounds : List RoundAnswers) :
    ∃ first, RoundInv config.defaults options first ∧
      gwSupervisorRun strtod config channel options rounds =
        Flow.loop (fun _ => none) id (supervisorRound strtod config channel options) rounds
          first := by
  have hstart : LogInv options (supervisorStart channel).log :=
    ⟨Log.each_nil _, fun _ => by simp [supervisorStart, restarts, lastReading, clockReadings]⟩
  have hstopped : (supervisorStart channel).runtime.state = .stopped := by
    simp [supervisorStart, gwChannelRuntimeInit, henabled]
  obtain ⟨first, heq, hentered⟩ := enterState_next husable hstart
    (runtimeInvariant_init config.defaults channel.enabled) rfl (.start (Or.inl hstopped))
    (fun heq => by cases heq) (ascii "start") id ⟨rfl, rfl⟩ (by simp)
  refine ⟨first, ⟨hentered.shared, ?_, hentered.idle, ?_⟩, ?_⟩
  · rw [hentered.runtime]
  · rw [hentered.attempts, hentered.restarts]
    rfl
  · unfold gwSupervisorRun
    rw [if_neg hbinary, heq, Flow.bind_next]

/-- The supervisor of an enabled channel, from its first call on. -/
theorem gwSupervisorRun_meets (strtod : Strtod) (husable : PolicyUsable config.defaults)
    (henabled : channel.enabled = true) (hbinary : options.ffmpegBinary.getD [] ≠ [])
    (rounds : List RoundAnswers) :
    RunMeets options (fun _ => False)
      (gwSupervisorRun strtod config channel options rounds) := by
  obtain ⟨first, hfirst, heq⟩ := gwSupervisorRun_loop strtod husable henabled hbinary rounds
  rw [heq]
  refine Flow.loop_meets (RoundInv config.defaults options) ?_ ?_ ?_ rounds hfirst
  · intro answers state hstate _
    exact supervisorRound_meets husable answers hstate
  · intro state result _ hdone
    cases hdone
  · exact fun state hstate _ => hstate.shared.log

/-- The log of a run, wherever the supervisor is. -/
def runLog : Flow SupervisorState (Int × SupervisorState) SupervisorState → List SupervisorEvent
  | .next state => state.log
  | .leave result => result.2.log
  | .blocked state => state.log

theorem logInv_runLog (strtod : Strtod) (husable : PolicyUsable config.defaults)
    (henabled : channel.enabled = true) (hbinary : options.ffmpegBinary.getD [] ≠ [])
    (rounds : List RoundAnswers) :
    LogInv options (runLog (gwSupervisorRun strtod config channel options rounds)) := by
  have hrun := gwSupervisorRun_meets strtod husable henabled hbinary rounds
  cases hflow : gwSupervisorRun strtod config channel options rounds with
  | next state =>
    rw [hflow] at hrun
    exact False.elim hrun
  | leave result =>
    rw [hflow] at hrun
    exact hrun.log
  | blocked state =>
    rw [hflow] at hrun
    exact hrun

/-- An event of a log is right in view of what came before it. -/
theorem LogInv.right_of_mem {log : List SupervisorEvent} (h : LogInv options log)
    {event : SupervisorEvent} (hmem : event ∈ log) : ∃ past, EventRight options past event := by
  obtain ⟨past, rest, heq⟩ := List.append_of_mem hmem
  exact ⟨past, h.right past event rest heq⟩

/-- A second for each restart leaves no room for `2 ^ 64` of them. -/
theorem LogInv.restarts_lt {log : List SupervisorEvent} (h : LogInv options log)
    (hmonotone : ClockMonotone log) : restarts log < 2 ^ 64 := by
  have htimed := h.timed hmonotone
  have hlast := lastReading_lt log
  omega

theorem restarts_le_append (past rest : List SupervisorEvent) :
    restarts past ≤ restarts (past ++ rest) := by
  unfold restarts
  rw [List.countP_append]
  omega

/-- A later snapshot of a log never shows fewer restarts. -/
theorem LogInv.restarts_grow {log : List SupervisorEvent} (h : LogInv options log)
    (hmonotone : ClockMonotone log) {past between rest : List SupervisorEvent}
    {earlier later : GwChannelSnapshot}
    (heq : log = past ++ .published earlier :: (between ++ .published later :: rest)) :
    earlier.totalRestarts ≤ later.totalRestarts := by
  have hbound := h.restarts_lt hmonotone
  have hearlier := (h.right past _ _ heq).counted
  have hsplit : log = (past ++ .published earlier :: between) ++ .published later :: rest := by
    rw [heq, List.append_assoc, List.cons_append]
  have hlater := (h.right _ _ _ hsplit).counted
  have horder := restarts_le_append past (.published earlier :: between)
  have hwhole := restarts_le_append (past ++ .published earlier :: between)
    (.published later :: rest)
  rw [← hsplit] at hwhole
  rw [hearlier, hlater, Nat.mod_eq_of_lt (by omega), Nat.mod_eq_of_lt (by omega)]
  exact horder

/-- The snapshots a run publishes show more and more restarts. -/
theorem publications_grow (strtod : Strtod) (husable : PolicyUsable config.defaults)
    (henabled : channel.enabled = true) (hbinary : options.ffmpegBinary.getD [] ≠ [])
    (rounds : List RoundAnswers)
    (hmonotone : ClockMonotone (runLog (gwSupervisorRun strtod config channel options rounds))) :
    (publications (runLog (gwSupervisorRun strtod config channel options rounds))).Pairwise
      fun earlier later => earlier.totalRestarts ≤ later.totalRestarts := by
  have hlog := logInv_runLog strtod husable henabled hbinary rounds
  rw [publications, List.pairwise_filterMap]
  refine Log.pairwise_of_split ?_
  intro past first between second rest heq earlier hearlier later hlater
  cases first <;> simp only [SupervisorEvent.snapshot, reduceCtorEq, Option.some.injEq] at hearlier
  cases second <;> simp only [SupervisorEvent.snapshot, reduceCtorEq, Option.some.injEq] at hlater
  rw [hearlier, hlater] at heq
  exact hlog.restarts_grow hmonotone heq

/-- An accepted configuration has a usable retry policy. -/
theorem policyUsable_of_accepted (h : gwConfigValidate config = .ok ()) :
    PolicyUsable config.defaults := by
  have hpolicy := (gwConfigValidate_accepted h).1
  simp only [retryPolicyPositive, Bool.and_eq_true, decide_eq_true_eq] at hpolicy
  exact ⟨hpolicy.1.2, hpolicy.2⟩

/-! ### A run with one restart -/

/-- The seconds of a run are written as numerals. -/
instance neZero_thousand : NeZero 1000 := ⟨by decide⟩

/-- A time of whole seconds. -/
def atSecond (sec : Fin 1000) : Timespec where
  sec := sec.val
  nsec := 0
  secNonneg := by omega
  secFits := by omega
  nsecNonneg := by decide
  nsecFits := by decide

/-- A `gw_process_stop` whose worker is gone at the first poll. -/
def promptStop (sec : Fin 1000) : StopAnswers :=
  ⟨none, some (atSecond sec), [(some (atSecond sec), .status 15)], .none, none, []⟩

/-- An iteration in which nothing happens. -/
def quietIteration (sec : Fin 1000) : IterationAnswers where
  stop := ⟨0, 0⟩
  stopProcess := promptStop sec
  poll := .ok (false, false)
  stdoutRead := .ok []
  progressClock := some (atSecond sec)
  stderrRead := .ok []
  wait := .none
  stableClock := some (atSecond sec)
  timeoutClock := some (atSecond sec)
  timeoutStop := promptStop sec

/-- A worker that reports one record, then closes its pipes and exits. -/
def oneRecord (sec : Fin 1000) (status : Int) : AttemptAnswers where
  allocator := fun _ => true
  start :=
    { stdoutPipe := .ok (3, 4)
      stdoutCloexec := none
      stdoutNonblock := none
      stderrPipe := .ok (5, 6)
      stderrCloexec := none
      stderrNonblock := none
      actionsInit := none
      addFileActions := none
      attributesInit := none
      setAttributes := none
      spawn := .ok 77 }
  startedClock := some (atSecond sec)
  startedStop := promptStop sec
  iterations :=
    [{ quietIteration sec with
        poll := .ok (true, false)
        stdoutRead := .ok (ascii "frame=1" ++ [newline] ++ ascii "progress=continue" ++ [newline]) },
      { quietIteration sec with
        poll := .ok (true, true)
        wait := .status status }]
  cleanupStop := promptStop sec

/-- A worker that fails, a second of backoff, and a worker that exits cleanly. -/
def restartedOnce : List RoundAnswers :=
  [⟨oneRecord 1 256, ⟨some (atSecond 1), [(some (atSecond 2), ⟨0, 0⟩)]⟩⟩,
    ⟨oneRecord 2 0, ⟨none, []⟩⟩]

/-- An observed supervisor that stops on a clean exit. -/
def cleanExitOptions : GwSupervisorOptions :=
  { gwSupervisorOptionsInit with stopOnCleanExit := true, observer := true }

/-- The run of these answers. -/
def restartedRun : Flow SupervisorState (Int × SupervisorState) SupervisorState :=
  gwSupervisorRun noNumber gwConfigInit channelInit cleanExitOptions restartedOnce

/-! ### The main results -/

/-- The supervisor never leaves the state machine: every transition it asks for is
accepted, the `k`-th attempt starts in STARTING after `k - 1` restarts, no attempt
ends pending, and the exit status tells the final state. -/
theorem gwSupervisorRun_stays_in_machine (hvalid : gwConfigValidate config = .ok ())
    (henabled : channel.enabled = true) (hbinary : options.ffmpegBinary.getD [] ≠ [])
    (rounds : List RoundAnswers)
    (hsucceed : ClockReadsSucceed
      (runLog (gwSupervisorRun strtod config channel options rounds))) :
    (∀ event result runtime,
      .transition event result runtime ∈
        runLog (gwSupervisorRun strtod config channel options rounds) → result = .ok ()) ∧
      (∀ (past : List SupervisorEvent) (runtime : GwChannelRuntime) (rest : List SupervisorEvent),
        runLog (gwSupervisorRun strtod config channel options rounds) =
          past ++ .attemptStarted runtime :: rest →
        runtime.state = .starting ∧ runtime.totalRestarts = attempts past % 2 ^ 64 ∧
          (ClockMonotone (runLog (gwSupervisorRun strtod config channel options rounds)) →
            runtime.totalRestarts = attempts past)) ∧
      (∀ outcome exitCode,
        .attemptEnded outcome exitCode ∈
          runLog (gwSupervisorRun strtod config channel options rounds) → outcome ≠ .pending) ∧
      ∀ code state, gwSupervisorRun strtod config channel options rounds = .leave (code, state) →
        (code = 0 ∨ code = 1) ∧
          (code = 0 ↔ state.runtime.state = .stopped) ∧
          (code = 1 ↔ state.runtime.state = .failed ∧ options.exitOnRetryExhaustion = true) ∧
          (code = 0 → StopReason options state.log) := by
  have husable := policyUsable_of_accepted hvalid
  have hlog := logInv_runLog strtod husable henabled hbinary rounds
  refine ⟨?_, ?_, ?_, ?_⟩
  · intro event result runtime hmem
    obtain ⟨past, hright⟩ := hlog.right_of_mem hmem
    exact hright
  · intro past runtime rest heq
    obtain ⟨hstarting, hrestarts, hcounted⟩ := hlog.right past _ rest heq
    refine ⟨hstarting, hrestarts, ?_⟩
    intro hmonotone
    have hbound := hlog.restarts_lt hmonotone
    have hprefix := restarts_le_append past (.attemptStarted runtime :: rest)
    rw [← heq] at hprefix
    rw [hrestarts, Nat.mod_eq_of_lt (by omega)]
  · intro outcome exitCode hmem
    obtain ⟨past, hright⟩ := hlog.right_of_mem hmem
    exact hright.1
  · intro code state hreturn
    have hrun := gwSupervisorRun_meets strtod husable henabled hbinary rounds
    rw [hreturn] at hrun hsucceed
    rcases hrun.ending with ⟨hcode, hstopped, hreason⟩ | ⟨hcode, hfailed, hexhausted⟩
    · simp only at hcode hstopped
      simp [hcode, hstopped, hreason hsucceed]
    · simp only at hcode hfailed
      simp [hcode, hfailed, hexhausted]

theorem gwSupervisorRun_stays_in_machine_restartedOnce :
    attempts (runLog restartedRun) = 2 ∧
      ∀ code state, restartedRun = .leave (code, state) →
        (code = 0 ∨ code = 1) ∧
          (code = 0 ↔ state.runtime.state = .stopped) ∧
          (code = 1 ↔ state.runtime.state = .failed ∧
            cleanExitOptions.exitOnRetryExhaustion = true) ∧
          (code = 0 → StopReason cleanExitOptions state.log) :=
  ⟨by decide +kernel,
    (gwSupervisorRun_stays_in_machine gwConfigInit_accepted rfl (by decide) restartedOnce
      (by decide +kernel)).2.2.2⟩

/-- Published snapshots are consistent, and their restarts never decrease. -/
theorem gwSupervisorRun_publishes_consistent (hvalid : gwConfigValidate config = .ok ())
    (henabled : channel.enabled = true) (rounds : List RoundAnswers) :
    (∀ (past : List SupervisorEvent) (snapshot : GwChannelSnapshot) (rest : List SupervisorEvent),
      runLog (gwSupervisorRun strtod config channel options rounds) =
        past ++ .published snapshot :: rest →
      (snapshot.processKind = .worker →
        (snapshot.state = .starting ∨ snapshot.state = .running) ∧
          (snapshot.hasProgress = true ↔ snapshot.state = .running) ∧
          (snapshot.hasProgress = true → attemptRecord past = some snapshot.progress)) ∧
      (snapshot.state = .stopped ∨ snapshot.state = .backoff ∨ snapshot.state = .failed →
        snapshot.processKind = .none ∧ snapshot.processPid = -1) ∧
      (snapshot.state = .backoff ∨ snapshot.state = .failed →
        snapshot.hasProgress = false ∧ snapshot.hasExitCode = true) ∧
      ∃ event, .transition event (.ok ()) snapshot.runtime ∈ past) ∧
      (ClockMonotone (runLog (gwSupervisorRun strtod config channel options rounds)) →
        ∀ (past between rest : List SupervisorEvent) (earlier later : GwChannelSnapshot),
          runLog (gwSupervisorRun strtod config channel options rounds) =
            past ++ .published earlier :: (between ++ .published later :: rest) →
          earlier.totalRestarts ≤ later.totalRestarts) := by
  have husable := policyUsable_of_accepted hvalid
  by_cases hbinary : options.ffmpegBinary.getD [] = []
  · have hnothing : runLog (gwSupervisorRun strtod config channel options rounds) = [] := by
      unfold gwSupervisorRun
      rw [if_pos hbinary]
      rfl
    rw [hnothing]
    exact ⟨by simp, by simp⟩
  · have hlog := logInv_runLog strtod husable henabled hbinary rounds
    constructor
    · intro past snapshot rest heq
      obtain ⟨hshape, hentered, -⟩ := hlog.right past _ rest heq
      exact ⟨hshape.worker, hshape.idle, hshape.retrying, hentered⟩
    · intro hmonotone past between rest earlier later heq
      exact hlog.restarts_grow hmonotone heq

theorem gwSupervisorRun_publishes_consistent_restartedOnce :
    restarts (runLog restartedRun) = 1 ∧
      ∀ (past between rest : List SupervisorEvent) (earlier later : GwChannelSnapshot),
        runLog restartedRun = past ++ .published earlier :: (between ++ .published later :: rest) →
        earlier.totalRestarts ≤ later.totalRestarts :=
  ⟨by decide +kernel,
    (gwSupervisorRun_publishes_consistent gwConfigInit_accepted rfl restartedOnce).2
      (by decide +kernel)⟩

end Run

end LearnApue.Gateway
