import LearnApue.Gateway.SupervisorRuns

set_option autoImplicit false

/-!
# Gateway: how a run of the supervisor ends

Whichever way `gw_supervisor_run` is left, its last transition was published, and so
the snapshot it published last shows a stopped or failed channel without a process.
-/

namespace LearnApue.Gateway

open LearnApue.Foundation

/-- What `gw_channel_manager_start_channel` asks of a snapshot, and that it shows no
process. -/
def GwChannelSnapshot.Startable (snapshot : GwChannelSnapshot) : Prop :=
  (snapshot.state = .stopped ∨ snapshot.state = .failed) ∧ snapshot.processKind = .none

/-- The snapshot of the state is the one published last. -/
def SupervisorState.ShownLast (state : SupervisorState) : Prop :=
  (∃ past, state.log = past ++ [.published state.snapshot]) ∧
    state.snapshot.runtime = state.runtime

/-- A log that tells of a rejected transition. -/
def Rejected (log : List SupervisorEvent) : Prop :=
  ∃ event error runtime, .transition event (.error error) runtime ∈ log

section Ending

variable {policy : GwRetryPolicy} {options : GwSupervisorOptions}

/-- What holds of a result with which a piece of the supervisor returns. -/
def LeavesShown (result : Int × SupervisorState) : Prop :=
  Rejected result.2.log ∨ result.2.ShownLast

/-- A piece of the supervisor that returns only so. -/
def EndsShown {α : Type} (after : α × SupervisorState → Prop) (flow : SupervisorFlow α) : Prop :=
  flow.Meets after LeavesShown fun _ => True

/-- A transition is published as the last event, or was rejected. -/
theorem enterState_shown (hobserver : options.observer = true) (event : GwChannelEvent)
    (label : Bytes) (prepare : GwChannelSnapshot → GwChannelSnapshot) (state : SupervisorState) :
    EndsShown (fun result => result.2.ShownLast)
      (enterState policy options event label prepare state) := by
  unfold enterState SupervisorState.transition
  obtain ⟨next, result⟩ := gwChannelTransition state.runtime event policy
  cases result with
  | error error =>
    refine Or.inl ⟨event, error, next, ?_⟩
    simp [SupervisorState.note]
  | ok value =>
    dsimp only
    unfold SupervisorState.publish
    rw [if_pos hobserver]
    exact ⟨⟨_, rfl⟩, rfl⟩

/-- Stopping publishes the stopped channel and returns. -/
theorem stopAndReturn_shown {α : Type} (hobserver : options.observer = true) (label : Bytes)
    (after : α × SupervisorState → Prop) (state : SupervisorState) :
    EndsShown after
      ((enterState policy options .stop label id state).bind fun (_, state) =>
        .leave (0, state)) := by
  refine Flow.Meets.bind (enterState_shown hobserver .stop label id state) ?_
  intro result hshown
  exact Or.inr hshown

/-- A backoff wait does not return from the supervisor. -/
theorem waitForBackoff_shown (backoffSec : Int) (answers : BackoffAnswers)
    (state : SupervisorState) :
    EndsShown (fun _ => True) (waitForBackoff options backoffSec answers state) := by
  unfold waitForBackoff
  cases answers.startClock with
  | none => exact trivial
  | some startedAt =>
    dsimp only
    generalize state.note [.clock (some startedAt)] = state
    induction answers.rounds generalizing state with
    | nil => exact trivial
    | cons round rest ih =>
      obtain ⟨clock, sources⟩ := round
      rw [backoffWait]
      split
      · exact trivial
      · split
        · exact trivial
        · exact ih _

theorem retryRound_shown (hobserver : options.observer = true) (answers : BackoffAnswers)
    (state : SupervisorState) :
    EndsShown (fun _ => True) (retryRound policy options answers state) := by
  unfold retryRound
  apply Flow.Meets.bind (waitForBackoff_shown state.runtime.backoffSec answers state)
  rintro ⟨waited, later⟩ -
  cases waited with
  | true =>
    have hentered := @enterState_shown policy options hobserver .backoffElapsed
      (ascii "backoff_elapsed") id later
    exact hentered.mono (fun _ _ => trivial) (fun _ h => h) fun _ h => h
  | false => exact stopAndReturn_shown hobserver _ _ later

/-- What follows an attempt returns only once its last transition is published. -/
theorem afterAttempt_shown (hobserver : options.observer = true) (answers : BackoffAnswers)
    (result : WorkerAttemptResult) (state : SupervisorState) :
    EndsShown (fun _ => True) (afterAttempt policy options answers result state) := by
  unfold afterAttempt
  dsimp only
  split
  · exact stopAndReturn_shown hobserver _ _ _
  · refine Flow.Meets.bind (enterState_shown hobserver .failure _ gwChannelSnapshotClearLiveData _) ?_
    rintro ⟨value, later⟩ hshown
    dsimp only
    split
    · exact Or.inr hshown
    · exact retryRound_shown hobserver answers later

end Ending

section Run

variable {strtod : Strtod} {config : GwConfig} {channel : GwChannelConfig}
  {options : GwSupervisorOptions}

theorem supervisorRound_shown (hobserver : options.observer = true)
    (husable : PolicyUsable config.defaults) (answers : RoundAnswers) {state : SupervisorState}
    (h : RoundInv config.defaults options state) :
    (supervisorRound strtod config channel options answers state).Meets (fun _ => True) LeavesShown
      fun _ => True := by
  have hattempt := @runWorkerAttempt_meets (Int × SupervisorState) strtod config channel options
    husable answers.attempt _ h.begins
  unfold supervisorRound
  refine Flow.Meets.bind
    (hattempt.mono (fun _ _ => trivial) (fun _ h => False.elim h) fun _ _ => trivial) ?_
  rintro ⟨result, later⟩ -
  refine Flow.Meets.bind (afterAttempt_shown hobserver answers.backoff result _) ?_
  exact fun _ _ => trivial

/-- The supervisor returns once its last transition is published. -/
theorem gwSupervisorRun_shown (strtod : Strtod) (husable : PolicyUsable config.defaults)
    (henabled : channel.enabled = true) (hbinary : options.ffmpegBinary.getD [] ≠ [])
    (hobserver : options.observer = true) (rounds : List RoundAnswers) :
    (gwSupervisorRun strtod config channel options rounds).Meets (fun _ => True) LeavesShown
      fun _ => True := by
  obtain ⟨first, hfirst, heq⟩ := gwSupervisorRun_loop strtod husable henabled hbinary rounds
  rw [heq]
  have hloop := @Flow.loop_meets _ _ _ _ (fun _ => none) id
    (supervisorRound strtod config channel options) (RoundInv config.defaults options) LeavesShown
    (fun _ => True) ?_ ?_ (fun _ _ _ => trivial) rounds first hfirst
  · exact hloop.mono (fun _ h => False.elim h) (fun _ h => h) fun _ h => h
  · intro answers state hstate _
    have hboth := Flow.Meets.and (@supervisorRound_meets strtod _ channel _ husable answers _ hstate)
      (supervisorRound_shown hobserver husable answers hstate)
    exact hboth.mono (fun _ h => h.1) (fun _ h => h.2) fun _ _ => trivial
  · intro state result _ hdone
    cases hdone

/-- What a supervisor has published last when it returns. -/
theorem published_of_return (husable : PolicyUsable config.defaults)
    (henabled : channel.enabled = true) (hbinary : options.ffmpegBinary.getD [] ≠ [])
    (hobserver : options.observer = true) {rounds : List RoundAnswers} {code : Int}
    {state : SupervisorState}
    (hreturn : gwSupervisorRun strtod config channel options rounds = .leave (code, state)) :
    ∃ last, (publications state.log).getLast? = some last ∧ last.Startable := by
  have hrun := gwSupervisorRun_meets strtod husable henabled hbinary rounds
  have hshown := gwSupervisorRun_shown strtod husable henabled hbinary hobserver rounds
  rw [hreturn] at hrun hshown
  rcases hshown with ⟨event, error, runtime, hmem⟩ | ⟨⟨past, heq⟩, hruntime⟩
  · obtain ⟨before, hright⟩ := hrun.log.right_of_mem hmem
    cases hright
  · refine ⟨state.snapshot, ?_, ?_⟩
    · simp only at heq
      rw [heq]
      simp [publications, SupervisorEvent.snapshot]
    · have hshape := (hrun.log.right past _ [] heq).shape
      have hstate : state.snapshot.state = state.runtime.state := by
        rw [← hruntime]
        rfl
      have hidle : state.snapshot.state = .stopped ∨ state.snapshot.state = .failed := by
        rw [hstate]
        rcases hrun.ending with ⟨-, hstopped, -⟩ | ⟨-, hfailed, -⟩
        · exact Or.inl hstopped
        · exact Or.inr hfailed
      refine ⟨hidle, (hshape.idle ?_).1⟩
      rcases hidle with hstopped | hfailed
      · exact Or.inl hstopped
      · exact Or.inr (Or.inr hfailed)

end Run

end LearnApue.Gateway
