import LearnApue.Gateway.SupervisorRuns

set_option autoImplicit false

/-!
# Gateway: a stop request and the loop of an attempt

A stop request ends the worker in the iteration that sees it, but the loop of
`run_worker_attempt` goes on until both pipes are at their end, and once the worker
has exited neither the stop check nor a timeout is made.  A pipe whose write end
another process holds open keeps the loop where it is.
-/

namespace LearnApue.Gateway

open LearnApue.Foundation

/-! ## What an iteration gets from the pipes -/

/-- An open pipe gives bytes or its end: bytes were written to it, or no process
holds a write end. -/
def delivers (process : GwProcess) (answers : IterationAnswers) : Bool :=
  let ready := readyDescriptors process answers.poll
  (ready.1 && answers.stdoutRead.isOk) || (ready.2 && answers.stderrRead.isOk)

/-- The turns of the loop, from a state in which its condition is tested. -/
def attemptTurns (strtod : Strtod) (config : GwConfig) (channel : GwChannelConfig)
    (options : GwSupervisorOptions) :
    List IterationAnswers → AttemptState → List (IterationAnswers × AttemptState) :=
  Flow.turns attemptDone (attemptIteration strtod config channel options)

/-- The states in which the condition of an attempt's loop is tested. -/
def AttemptReaches (strtod : Strtod) (config : GwConfig) (channel : GwChannelConfig)
    (options : GwSupervisorOptions) (state : AttemptState) : Prop :=
  ∃ process startedAt shared,
    Flow.Reaches attemptDone (attemptIteration strtod config channel options)
      (attemptStart options process startedAt shared) state

/-- The turns in which no pipe delivers. -/
def quietTurns (turns : List (IterationAnswers × AttemptState)) : Nat :=
  turns.countP fun turn => !delivers turn.2.process turn.1

/-! ## Exits are kept -/

/-- A block keeps the exit, and with it that only an exited worker has an outcome. -/
structure KeepsExit (state next : AttemptState) : Prop where
  exited : state.exited = true → next.exited = true
  settled : (state.outcome ≠ .pending → state.exited = true) →
    next.outcome ≠ .pending → next.exited = true

theorem KeepsExit.of_same {state next : AttemptState} (hexited : next.exited = state.exited)
    (houtcome : next.outcome = state.outcome) : KeepsExit state next := by
  constructor
  · rw [hexited]
    exact id
  · rw [hexited, houtcome]
    exact id

theorem KeepsExit.of_exited {state next : AttemptState} (h : next.exited = true) :
    KeepsExit state next :=
  ⟨fun _ => h, fun _ _ => h⟩

theorem KeepsExit.trans {first second third : AttemptState} (h : KeepsExit first second)
    (hnext : KeepsExit second third) : KeepsExit first third :=
  ⟨fun hexited => hnext.exited (h.exited hexited), fun hsettled => hnext.settled (h.settled hsettled)⟩

/-- A piece of the loop body that keeps the exit when it goes on. -/
def BlockKeepsExit (state : AttemptState) (flow : AttemptFlow) : Prop :=
  flow.Meets (KeepsExit state) (fun _ => True) fun _ => True

theorem BlockKeepsExit.bind {state : AttemptState} {flow : AttemptFlow}
    {rest : AttemptState → AttemptFlow} (hflow : BlockKeepsExit state flow)
    (hrest : ∀ next, BlockKeepsExit next (rest next)) : BlockKeepsExit state (flow.bind rest) := by
  refine Flow.Meets.bind hflow ?_
  intro middle hmiddle
  exact (hrest middle).mono (fun _ hnext => hmiddle.trans hnext) (fun _ h => h) fun _ h => h

theorem BlockKeepsExit.from_same {state middle : AttemptState} {flow : AttemptFlow}
    (h : BlockKeepsExit middle flow) (hexited : middle.exited = state.exited)
    (houtcome : middle.outcome = state.outcome) : BlockKeepsExit state flow :=
  h.mono (fun _ hnext => KeepsExit.trans (.of_same hexited houtcome) hnext) (fun _ h => h)
    fun _ h => h

section Blocks

variable (strtod : Strtod) (config : GwConfig) (channel : GwChannelConfig)
  (options : GwSupervisorOptions) (answers : IterationAnswers) (state : AttemptState)

theorem stopBlock_keepsExit : BlockKeepsExit state (stopBlock config options answers state) := by
  unfold stopBlock
  split
  · cases gwProcessStop state.process (stopTimeoutMs config) answers.stopProcess with
    | none => trivial
    | some reply =>
      dsimp only
      cases reply.result with
      | error error => trivial
      | ok value => exact .of_exited rfl
  · exact .of_same rfl rfl

theorem pollBlock_keepsExit : BlockKeepsExit state (pollBlock answers state) := by
  unfold pollBlock
  split
  · split
    · exact .of_same rfl rfl
    · trivial
  · exact .of_same rfl rfl

theorem progressBlock_keepsExit :
    BlockKeepsExit state (progressBlock config options answers state) := by
  unfold progressBlock
  cases answers.progressClock with
  | none => trivial
  | some now =>
    dsimp only
    split
    · exact .of_same rfl rfl
    · split
      · trivial
      · exact .of_same rfl rfl

theorem stdoutBlock_keepsExit (ready : Bool) :
    BlockKeepsExit state (stdoutBlock strtod config options answers ready state) := by
  unfold stdoutBlock
  split
  · dsimp only
    split
    · trivial
    · split
      · trivial
      · split
        · exact (progressBlock_keepsExit config options answers _).from_same rfl rfl
        · exact .of_same rfl rfl
  · exact .of_same rfl rfl

theorem stderrBlock_keepsExit (ready : Bool) :
    BlockKeepsExit state (stderrBlock channel answers ready state) := by
  unfold stderrBlock
  split
  · dsimp only
    split
    · trivial
    · split
      · exact .of_same rfl rfl
      · exact .of_same rfl rfl
  · exact .of_same rfl rfl

/-- The exit poll is the one block that changes `exited` and not the outcome; it is
made only before the exit. -/
theorem exitBlock_keepsExit : BlockKeepsExit state (exitBlock answers state) := by
  unfold exitBlock
  by_cases hexited : state.exited = true
  · rw [if_pos hexited]
    exact .of_same rfl rfl
  · rw [if_neg hexited]
    dsimp only
    split
    · trivial
    · refine ⟨fun h => absurd h hexited, fun hsettled hnext => ?_⟩
      exact absurd (hsettled hnext) hexited

theorem stableBlock_keepsExit :
    BlockKeepsExit state (stableBlock config options answers state) := by
  unfold stableBlock
  split
  · dsimp only
    split
    · split
      · trivial
      · exact .of_same rfl rfl
    · exact .of_same rfl rfl
  · exact .of_same rfl rfl

theorem timeoutBlock_keepsExit : BlockKeepsExit state (timeoutBlock config answers state) := by
  unfold timeoutBlock
  split
  · dsimp only
    split
    · split
      · trivial
      · split
        · trivial
        · exact .of_exited rfl
    · exact .of_same rfl rfl
  · exact .of_same rfl rfl

/-- What follows the stop check. -/
theorem afterStop_keepsExit (next : AttemptState) :
    BlockKeepsExit next
      ((pollBlock answers next).bind fun state =>
        let ready := readyDescriptors state.process answers.poll
        (stdoutBlock strtod config options answers ready.1 state).bind fun state =>
          (stderrBlock channel answers ready.2 state).bind fun state =>
            (exitBlock answers state).bind fun state =>
              (stableBlock config options answers state).bind fun state =>
                timeoutBlock config answers state) :=
  (pollBlock_keepsExit answers next).bind fun polled =>
    (stdoutBlock_keepsExit strtod config options answers polled _).bind fun drained =>
      (stderrBlock_keepsExit channel answers drained _).bind fun quiet =>
        (exitBlock_keepsExit answers quiet).bind fun exited =>
          (stableBlock_keepsExit config options answers exited).bind fun stable =>
            timeoutBlock_keepsExit config answers stable

theorem attemptIteration_keepsExit :
    BlockKeepsExit state (attemptIteration strtod config channel options answers state) :=
  (stopBlock_keepsExit config options answers state).bind
    (afterStop_keepsExit strtod config channel options answers)

end Blocks

/-! ## After a stop request -/

/-- A supervisor with a stop check. -/
def stopCheckOptions : GwSupervisorOptions := { gwSupervisorOptionsInit with stopCheck := true }

/-- A stop request while no pipe has anything to read. -/
def stopWhileHeld : IterationAnswers := { quietIteration 1 with stop := ⟨15, 0⟩ }

/-- The attempt of a worker that has just been started. -/
def workerStarted : AttemptState :=
  attemptStart stopCheckOptions ⟨77, 3, 5, true, false, 0⟩ (atSecond 1)
    { supervisorStart channelInit with runtime := ⟨.starting, 0, 0, 0⟩ }

/-- No other process can write to the pipes: both are at their end. -/
def pipesAtEnd : IterationAnswers :=
  { stopWhileHeld with poll := .ok (true, true) }

section Stop

variable {strtod : Strtod} {config : GwConfig} {channel : GwChannelConfig}
  {options : GwSupervisorOptions}

/-- Only an exited worker has an outcome. -/
def Settled (state : AttemptState) : Prop :=
  state.outcome ≠ .pending → state.exited = true

theorem settled_of_reaches {state : AttemptState}
    (h : AttemptReaches strtod config channel options state) : Settled state := by
  obtain ⟨process, startedAt, shared, hreaches⟩ := h
  refine hreaches.invariant ?_ (fun houtcome => absurd rfl houtcome)
  intro answers before hbefore
  exact (attemptIteration_keepsExit strtod config channel options answers before).mono
    (fun _ hkeeps => hkeeps.settled hbefore) (fun _ h => h) fun _ h => h

/-- The stop check that sees a request leaves no running worker behind. -/
theorem stopBlock_stops {answers : IterationAnswers} {state : AttemptState}
    (hstop : stopSignalValue options answers.stop ≠ 0) (hsettled : Settled state) :
    (stopBlock config options answers state).Meets (fun next => next.exited = true)
      (fun _ => True) fun _ => True := by
  unfold stopBlock
  split
  · cases gwProcessStop state.process (stopTimeoutMs config) answers.stopProcess with
    | none => trivial
    | some reply =>
      dsimp only
      cases reply.result with
      | error error => trivial
      | ok value => exact rfl
  · rename_i hignored
    by_cases hpending : state.outcome = .pending
    · by_contra hrunning
      exact hignored ⟨hstop, hpending, Bool.eq_false_iff.mpr hrunning⟩
    · exact hsettled hpending

/-- So does the iteration that makes it. -/
theorem attemptIteration_stops {answers : IterationAnswers} {state : AttemptState}
    (hstop : stopSignalValue options answers.stop ≠ 0) (hsettled : Settled state) :
    (attemptIteration strtod config channel options answers state).Meets
      (fun next => next.exited = true) (fun _ => True) fun _ => True := by
  refine Flow.Meets.bind (stopBlock_stops hstop hsettled) ?_
  intro stopped hstopped
  exact (afterStop_keepsExit strtod config channel options answers stopped).mono
    (fun _ hkeeps => hkeeps.exited hstopped) (fun _ h => h) fun _ h => h

/-- After the first turn with a stop request every turn finds the worker exited. -/
theorem exited_after_stop {iterations : List IterationAnswers} {state : AttemptState}
    (hstop : ∀ answers ∈ iterations, stopSignalValue options answers.stop ≠ 0)
    (hsettled : Settled state) :
    ∀ turn ∈ (attemptTurns strtod config channel options iterations state).tail,
      turn.2.exited = true := by
  cases iterations with
  | nil => simp [attemptTurns, Flow.turns]
  | cons answers rest =>
    unfold attemptTurns
    rw [Flow.turns]
    cases attemptDone state with
    | some result => simp
    | none =>
      have hfirst := @attemptIteration_stops strtod config channel options answers state
        (hstop answers List.mem_cons_self) hsettled
      dsimp only
      cases hbody : attemptIteration strtod config channel options answers state with
      | next later =>
        rw [hbody] at hfirst
        have hlater : later.exited = true := hfirst
        refine Flow.turns_invariant (fun state : AttemptState => state.exited = true) ?_ rest hlater
        intro answers before hexited
        exact (attemptIteration_keepsExit strtod config channel options answers before).mono
          (fun _ hkeeps => hkeeps.exited hexited) (fun _ h => h) fun _ h => h
      | leave result => simp
      | blocked state => simp

/-- With a stop request at every check, and with pipes that deliver in every turn
made once the worker has exited, at most one turn is quiet. -/
theorem attemptLoop_quiet_after_stop {iterations : List IterationAnswers} {state : AttemptState}
    (hreaches : AttemptReaches strtod config channel options state)
    (hstop : ∀ answers ∈ iterations, stopSignalValue options answers.stop ≠ 0)
    (hends : ∀ turn ∈ attemptTurns strtod config channel options iterations state,
      turn.2.exited = true → delivers turn.2.process turn.1 = true) :
    quietTurns (attemptTurns strtod config channel options iterations state) ≤ 1 := by
  have hexited := @exited_after_stop strtod config channel options iterations state hstop
    (settled_of_reaches hreaches)
  cases hturns : attemptTurns strtod config channel options iterations state with
  | nil => simp [quietTurns]
  | cons first rest =>
    rw [hturns] at hends hexited
    have hrest : quietTurns rest = 0 := by
      unfold quietTurns
      rw [List.countP_eq_zero]
      intro turn hturn
      simp [hends turn (List.mem_cons_of_mem _ hturn) (hexited turn hturn)]
    unfold quietTurns at hrest ⊢
    rw [List.countP_cons, hrest]
    split <;> omega

theorem attemptLoop_quiet_after_stop_pipesAtEnd :
    quietTurns (attemptTurns noNumber gwConfigInit channelInit stopCheckOptions
        [stopWhileHeld, pipesAtEnd] workerStarted) ≤ 1 ∧
      (attemptTurns noNumber gwConfigInit channelInit stopCheckOptions
        [stopWhileHeld, pipesAtEnd] workerStarted).length = 2 :=
  ⟨attemptLoop_quiet_after_stop ⟨_, _, _, .start⟩ (by decide) (by decide +kernel),
    by decide +kernel⟩

/-- The defect: once the worker has exited, an iteration in which no pipe is ready
changes nothing, stop request or not. -/
theorem attemptIteration_stalls {answers : IterationAnswers} {state : AttemptState}
    (hexited : state.exited = true) (hpoll : answers.poll = .ok (false, false)) :
    attemptIteration strtod config channel options answers state = .next state := by
  have hstop : stopBlock config options answers state = .next state := by
    unfold stopBlock
    rw [if_neg (by simp [hexited])]
  have hpolled : pollBlock answers state = .next state := by
    unfold pollBlock
    rw [hpoll]
  have hready : readyDescriptors state.process answers.poll = (false, false) := by
    rw [hpoll]
    simp [readyDescriptors]
  have hexit : exitBlock answers state = .next state := by
    unfold exitBlock
    rw [if_pos hexited]
  have hstable : stableBlock config options answers state = .next state := by
    unfold stableBlock
    rw [if_neg (by simp [hexited])]
  have htimeout : timeoutBlock config answers state = .next state := by
    unfold timeoutBlock
    rw [if_neg (by simp [hexited])]
  simp only [attemptIteration, hstop, Flow.bind_next, hpolled, hready, stdoutBlock, stderrBlock,
    hexit, hstable, htimeout, Bool.false_eq_true, if_false]

end Stop

/-! ### A helper process that keeps a pipe open -/

section HelperHoldsPipe

/-- The bound the stop request should put on an attempt. -/
def StopBounds (strtod : Strtod) (config : GwConfig) (channel : GwChannelConfig)
    (options : GwSupervisorOptions) (bound : Nat) : Prop :=
  ∀ state iterations, AttemptReaches strtod config channel options state →
    (∀ answers ∈ iterations, stopSignalValue options answers.stop ≠ 0) →
    (∀ turn ∈ attemptTurns strtod config channel options iterations state, ∀ reply,
      gwProcessStop turn.2.process (stopTimeoutMs config) turn.1.stopProcess = some reply →
        reply.result = .ok ()) →
    quietTurns (attemptTurns strtod config channel options iterations state) ≤ bound

/-- The worker is stopped, and its pipes stay open. -/
theorem workerStarted_stopped :
    ∃ later, attemptIteration noNumber gwConfigInit channelInit stopCheckOptions stopWhileHeld
        workerStarted = .next later ∧
      later.exited = true ∧ later.process = ⟨77, 3, 5, false, true, 15⟩ :=
  ⟨_, rfl, rfl, rfl⟩

theorem stop_request_unbounded :
    ¬ ∃ bound, StopBounds noNumber gwConfigInit channelInit stopCheckOptions bound := by
  rintro ⟨bound, hbound⟩
  obtain ⟨later, hstep, hexited, hprocess⟩ := workerStarted_stopped
  have hreaches : AttemptReaches noNumber gwConfigInit channelInit stopCheckOptions later :=
    ⟨_, _, _, .turn .start rfl hstep⟩
  have hrunning : attemptDone later = none := by
    unfold attemptDone
    rw [hprocess, if_pos (Or.inr (Or.inl (by decide)))]
  have hturns : attemptTurns noNumber gwConfigInit channelInit stopCheckOptions
      (List.replicate (bound + 1) stopWhileHeld) later =
        List.replicate (bound + 1) (stopWhileHeld, later) := by
    unfold attemptTurns
    rw [Flow.turns_of_stuck hrunning, List.map_replicate]
    intro answers hanswers
    rw [List.eq_of_mem_replicate hanswers]
    exact attemptIteration_stalls hexited rfl
  have hquiet := hbound later (List.replicate (bound + 1) stopWhileHeld) hreaches ?_ ?_
  · have hsilent : delivers later.process stopWhileHeld = false := by
      rw [hprocess]
      decide
    rw [hturns, quietTurns, List.countP_replicate] at hquiet
    simp [hsilent] at hquiet
  · intro answers hanswers
    rw [List.eq_of_mem_replicate hanswers]
    decide
  · rw [hturns]
    intro turn hturn reply hreply
    rw [List.eq_of_mem_replicate hturn] at hreply
    simp only [hprocess] at hreply
    have hreaped : gwProcessStop ⟨77, 3, 5, false, true, 15⟩ (stopTimeoutMs gwConfigInit)
        stopWhileHeld.stopProcess = some ⟨⟨77, 3, 5, false, true, 15⟩, .ok (), []⟩ := rfl
    rw [hreaped, Option.some.injEq] at hreply
    rw [← hreply]

end HelperHoldsPipe

end LearnApue.Gateway
