import LearnApue.Gateway.Supervisor

set_option autoImplicit false

/-!
# Gateway: the invariant of a supervisor run

`SupervisorInv` ties the runtime, the snapshot and the log of a supervisor together
between any two of its steps; `EventRight` is what it says about each event of the
log in view of the events before it.  The lemmas of this module say how the few
things a supervisor does to these three keep the invariant; the blocks of the code
are proved from them.
-/

namespace LearnApue.Gateway

open LearnApue.Foundation

/-! ## What a log records -/

/-- A restart: an accepted `BACKOFF_ELAPSED`. -/
def SupervisorEvent.isRestart : SupervisorEvent → Bool
  | .transition .backoffElapsed (.ok _) _ => true
  | _ => false

/-- A call of `run_worker_attempt`. -/
def SupervisorEvent.isAttempt : SupervisorEvent → Bool
  | .attemptStarted _ => true
  | _ => false

/-- The time of a successful clock read. -/
def SupervisorEvent.reading : SupervisorEvent → Option Timespec
  | .clock answer => answer
  | _ => none

/-- The restarts in a log. -/
def restarts (log : List SupervisorEvent) : Nat := log.countP SupervisorEvent.isRestart

/-- The attempts in a log. -/
def attempts (log : List SupervisorEvent) : Nat := log.countP SupervisorEvent.isAttempt

/-- The record an attempt has completed last, after one more event. -/
def nextRecord (record : Option GwWorkerProgress) : SupervisorEvent → Option GwWorkerProgress
  | .attemptStarted _ => none
  | .record progress => some progress
  | _ => record

/-- The last record that the running attempt has completed. -/
def attemptRecord (log : List SupervisorEvent) : Option GwWorkerProgress :=
  log.foldl nextRecord none

/-- The successful clock reads of a log. -/
def clockReadings (log : List SupervisorEvent) : List Timespec :=
  log.filterMap SupervisorEvent.reading

/-- The snapshot an event publishes. -/
def SupervisorEvent.snapshot : SupervisorEvent → Option GwChannelSnapshot
  | .published snapshot => some snapshot
  | _ => none

/-- The snapshots a log publishes, in order. -/
def publications (log : List SupervisorEvent) : List GwChannelSnapshot :=
  log.filterMap SupervisorEvent.snapshot

/-- A clock read that failed. -/
def SupervisorEvent.isFailedRead : SupervisorEvent → Bool
  | .clock none => true
  | _ => false

/-- The clock never went back. -/
def ClockMonotone (log : List SupervisorEvent) : Prop :=
  (clockReadings log).Pairwise fun earlier later => earlier.nanoseconds ≤ later.nanoseconds

instance (log : List SupervisorEvent) : Decidable (ClockMonotone log) :=
  inferInstanceAs (Decidable (List.Pairwise _ _))

/-- Every clock read succeeded. -/
def ClockReadsSucceed (log : List SupervisorEvent) : Prop :=
  ∀ event ∈ log, event.isFailedRead = false

instance (log : List SupervisorEvent) : Decidable (ClockReadsSucceed log) :=
  inferInstanceAs (Decidable (∀ event ∈ log, event.isFailedRead = false))

/-- The last time read, zero before the first read. -/
def lastReading (log : List SupervisorEvent) : Int :=
  ((clockReadings log).getLast?.map Timespec.nanoseconds).getD 0

section Concat

variable (log : List SupervisorEvent) (event : SupervisorEvent)

theorem restarts_concat :
    restarts (log ++ [event]) = restarts log + if event.isRestart then 1 else 0 := by
  rw [restarts, List.countP_append, List.countP_singleton]
  rfl

/-- The restarts after an accepted transition. -/
theorem restarts_transition (event : GwChannelEvent) (next : GwChannelRuntime) :
    restarts (log ++ [.transition event (.ok ()) next]) =
      restarts log + if event = .backoffElapsed then 1 else 0 := by
  rw [restarts_concat]
  cases event <;> rfl

theorem attempts_concat :
    attempts (log ++ [event]) = attempts log + if event.isAttempt then 1 else 0 := by
  rw [attempts, List.countP_append, List.countP_singleton]
  rfl

theorem attemptRecord_concat :
    attemptRecord (log ++ [event]) = nextRecord (attemptRecord log) event := by
  rw [attemptRecord, List.foldl_append]
  rfl

theorem clockReadings_concat :
    clockReadings (log ++ [event]) = clockReadings log ++ event.reading.toList := by
  rw [clockReadings, List.filterMap_append]
  cases hreading : event.reading <;> simp [clockReadings, hreading]

theorem clockMonotone_of_append {log more : List SupervisorEvent}
    (h : ClockMonotone (log ++ more)) : ClockMonotone log := by
  unfold ClockMonotone clockReadings at h
  rw [List.filterMap_append, List.pairwise_append] at h
  exact h.1

theorem clockMonotone_concat_of_none {event : SupervisorEvent} (h : event.reading = none) :
    ClockMonotone (log ++ [event]) ↔ ClockMonotone log := by
  rw [ClockMonotone, ClockMonotone, clockReadings_concat, h, Option.toList_none, List.append_nil]

theorem lastReading_concat_of_none {event : SupervisorEvent} (h : event.reading = none) :
    lastReading (log ++ [event]) = lastReading log := by
  rw [lastReading, lastReading, clockReadings_concat, h, Option.toList_none, List.append_nil]

theorem lastReading_concat_clock (now : Timespec) :
    lastReading (log ++ [.clock (some now)]) = now.nanoseconds := by
  rw [lastReading, clockReadings_concat]
  simp [SupervisorEvent.reading]

end Concat

theorem Timespec.nanoseconds_nonneg (time : Timespec) : 0 ≤ time.nanoseconds := by
  have hsec := time.secNonneg
  have hnsec := time.nsecNonneg
  unfold Timespec.nanoseconds
  omega

theorem lastReading_lt (log : List SupervisorEvent) :
    lastReading log < 2 ^ 63 * 1000000000 := by
  unfold lastReading
  cases (clockReadings log).getLast? with
  | none => norm_num
  | some time =>
    have hsec := time.secFits
    have hnsec := time.nsecFits
    simp only [Option.map_some, Option.getD_some, Timespec.nanoseconds]
    omega

/-- A monotone clock moves on from the last time read. -/
theorem lastReading_le_of_monotone {log : List SupervisorEvent} {now : Timespec}
    (h : ClockMonotone (log ++ [.clock (some now)])) : lastReading log ≤ now.nanoseconds := by
  unfold lastReading
  cases hlast : (clockReadings log).getLast? with
  | none => exact now.nanoseconds_nonneg
  | some time =>
    rw [ClockMonotone, clockReadings_concat, List.pairwise_append] at h
    exact h.2.2 time (List.mem_of_getLast? hlast) now (by simp [SupervisorEvent.reading])

/-! ## The invariant -/

/-- What a snapshot shows of the worker, in view of the log. -/
structure SnapshotShape (past : List SupervisorEvent) (snapshot : GwChannelSnapshot) : Prop where
  worker : snapshot.processKind = .worker →
    (snapshot.state = .starting ∨ snapshot.state = .running) ∧
      (snapshot.hasProgress = true ↔ snapshot.state = .running) ∧
      (snapshot.hasProgress = true → attemptRecord past = some snapshot.progress)
  idle : snapshot.state = .stopped ∨ snapshot.state = .backoff ∨ snapshot.state = .failed →
    snapshot.processKind = .none ∧ snapshot.processPid = -1
  retrying : snapshot.state = .backoff ∨ snapshot.state = .failed →
    snapshot.hasProgress = false ∧ snapshot.hasExitCode = true

/-- What a published snapshot satisfies: its shape, and that its runtime values are
together those of a runtime the supervisor was in. -/
structure SnapshotRight (past : List SupervisorEvent) (snapshot : GwChannelSnapshot) : Prop where
  shape : SnapshotShape past snapshot
  entered : ∃ event, .transition event (.ok ()) snapshot.runtime ∈ past
  counted : snapshot.totalRestarts = restarts past % 2 ^ 64

/-- What each event of a log satisfies in view of the events before it. -/
def EventRight (options : GwSupervisorOptions) (past : List SupervisorEvent) :
    SupervisorEvent → Prop
  | .transition _ result _ => result = .ok ()
  | .published snapshot => SnapshotRight past snapshot
  | .attemptStarted runtime =>
      runtime.state = .starting ∧ runtime.totalRestarts = attempts past % 2 ^ 64 ∧
        attempts past = restarts past
  | .attemptEnded outcome exitCode =>
      outcome ≠ .pending ∧
        (outcome = .cleanExit → options.stopOnCleanExit = true ∧ exitCode = 0) ∧
        (outcome = .stopRequested → .stopRequested ∈ past)
  | _ => True

/-- What holds of the log wherever the supervisor is: each event is right, and a
second has passed for each restart. -/
structure LogInv (options : GwSupervisorOptions) (log : List SupervisorEvent) : Prop where
  right : Log.Each (EventRight options) log
  timed : ClockMonotone log → (restarts log : Int) * 1000000000 ≤ lastReading log

/-- What holds of a supervisor between its steps. -/
structure SupervisorInv (policy : GwRetryPolicy) (options : GwSupervisorOptions)
    (state : SupervisorState) : Prop where
  log : LogInv options state.log
  runtime : RuntimeInvariant policy state.runtime
  shown : state.snapshot.runtime = state.runtime
  entered : ∃ event, .transition event (.ok ()) state.runtime ∈ state.log
  counted : state.runtime.totalRestarts = restarts state.log % 2 ^ 64

/-! ## Steps that keep it -/

/-- An event that is no restart and no clock read. -/
theorem LogInv.concat {options : GwSupervisorOptions} {log : List SupervisorEvent}
    {event : SupervisorEvent} (h : LogInv options log) (hright : EventRight options log event)
    (hrestart : event.isRestart = false) (hreading : event.reading = none) :
    LogInv options (log ++ [event]) := by
  refine ⟨Log.each_concat.mpr ⟨h.right, hright⟩, ?_⟩
  rw [clockMonotone_concat_of_none log hreading, lastReading_concat_of_none log hreading,
    restarts_concat, hrestart]
  exact h.timed

/-- A clock read. -/
theorem LogInv.clock {options : GwSupervisorOptions} {log : List SupervisorEvent}
    (h : LogInv options log) (answer : ClockAnswer) : LogInv options (log ++ [.clock answer]) := by
  cases answer with
  | none => exact h.concat trivial rfl rfl
  | some now =>
    refine ⟨Log.each_concat.mpr ⟨h.right, trivial⟩, ?_⟩
    intro hmonotone
    have hbefore := h.timed (clockMonotone_of_append hmonotone)
    have hlater := lastReading_le_of_monotone hmonotone
    rw [restarts_concat, lastReading_concat_clock]
    exact le_trans hbefore hlater

section Keeps

variable {policy : GwRetryPolicy} {options : GwSupervisorOptions} {state : SupervisorState}

/-- The log grows by an event that is no restart. -/
theorem SupervisorInv.note_of_log {event : SupervisorEvent} (h : SupervisorInv policy options state)
    (hlog : LogInv options (state.log ++ [event])) (hrestart : event.isRestart = false) :
    SupervisorInv policy options (state.note [event]) := by
  obtain ⟨entry, hentry⟩ := h.entered
  refine ⟨hlog, h.runtime, h.shown, ⟨entry, List.mem_append_left _ hentry⟩, ?_⟩
  simp only [SupervisorState.note]
  rw [restarts_concat, hrestart]
  exact h.counted

theorem SupervisorInv.note {event : SupervisorEvent} (h : SupervisorInv policy options state)
    (hright : EventRight options state.log event) (hrestart : event.isRestart = false)
    (hreading : event.reading = none) : SupervisorInv policy options (state.note [event]) :=
  h.note_of_log (h.log.concat hright hrestart hreading) hrestart

theorem SupervisorInv.clock (h : SupervisorInv policy options state) (answer : ClockAnswer) :
    SupervisorInv policy options (state.note [.clock answer]) :=
  h.note_of_log (h.log.clock answer) rfl

/-- System calls and printed lines. -/
def SupervisorEvent.isPlain : SupervisorEvent → Bool
  | .system _ => true
  | .printed _ => true
  | _ => false

/-- What plain events leave as it was. -/
structure PlainNote (state : SupervisorState) (events : List SupervisorEvent) : Prop where
  restarts : restarts (state.note events).log = restarts state.log
  attempts : attempts (state.note events).log = attempts state.log
  record : attemptRecord (state.note events).log = attemptRecord state.log

theorem SupervisorInv.note_plain {events : List SupervisorEvent}
    (hplain : ∀ event ∈ events, event.isPlain = true) :
    ∀ {state : SupervisorState}, SupervisorInv policy options state →
      SupervisorInv policy options (state.note events) ∧ PlainNote state events := by
  induction events with
  | nil =>
    intro state h
    have hnil : state.note [] = state := by
      unfold SupervisorState.note
      rw [List.append_nil]
    rw [hnil]
    exact ⟨h, ⟨by rw [hnil], by rw [hnil], by rw [hnil]⟩⟩
  | cons event rest ih =>
    intro state h
    have hcons : state.note (event :: rest) = (state.note [event]).note rest := by
      simp [SupervisorState.note]
    have hevent := hplain event List.mem_cons_self
    have hone : SupervisorInv policy options (state.note [event]) := by
      cases event <;> first
        | exact h.note trivial rfl rfl
        | simp [SupervisorEvent.isPlain] at hevent
    obtain ⟨hinv, hplainRest⟩ := ih (fun e he => hplain e (List.mem_cons_of_mem _ he)) hone
    have hunchanged : PlainNote state [event] := by
      constructor
      · simp only [SupervisorState.note, restarts_concat]
        cases event <;> first | rfl | simp [SupervisorEvent.isPlain] at hevent
      · simp only [SupervisorState.note, attempts_concat]
        cases event <;> first | rfl | simp [SupervisorEvent.isPlain] at hevent
      · simp only [SupervisorState.note, attemptRecord_concat]
        cases event <;> first | rfl | simp [SupervisorEvent.isPlain] at hevent
    rw [hcons]
    refine ⟨hinv, ?_⟩
    constructor
    · rw [hcons, hplainRest.restarts, hunchanged.restarts]
    · rw [hcons, hplainRest.attempts, hunchanged.attempts]
    · rw [hcons, hplainRest.record, hunchanged.record]

theorem plain_system (calls : List SystemCall) :
    ∀ event ∈ calls.map SupervisorEvent.system, event.isPlain = true := by
  intro event h
  obtain ⟨call, -, rfl⟩ := List.mem_map.mp h
  rfl

theorem plain_printed (lines : List Bytes) :
    ∀ event ∈ lines.map SupervisorEvent.printed, event.isPlain = true := by
  intro event h
  obtain ⟨line, -, rfl⟩ := List.mem_map.mp h
  rfl

/-- The snapshot may change in everything but the runtime it shows. -/
theorem SupervisorInv.withSnapshot (h : SupervisorInv policy options state)
    {snapshot : GwChannelSnapshot} (hsame : snapshot.runtime = state.snapshot.runtime) :
    SupervisorInv policy options { state with snapshot := snapshot } :=
  ⟨h.log, h.runtime, hsame.trans h.shown, h.entered, h.counted⟩

/-- Publishing. -/
theorem SupervisorInv.publish (h : SupervisorInv policy options state)
    (hshape : SnapshotShape state.log state.snapshot) :
    SupervisorInv policy options (state.publish options) := by
  unfold SupervisorState.publish
  split
  · refine h.note ?_ rfl rfl
    obtain ⟨event, hevent⟩ := h.entered
    refine ⟨hshape, ⟨event, h.shown ▸ hevent⟩, ?_⟩
    have hcounted := h.counted
    rw [← h.shown] at hcounted
    exact hcounted
  · exact h

/-- What publishing leaves as it was. -/
theorem publish_frame (options : GwSupervisorOptions) (state : SupervisorState) :
    (state.publish options).runtime = state.runtime ∧
      (state.publish options).snapshot = state.snapshot ∧
      restarts (state.publish options).log = restarts state.log ∧
      attempts (state.publish options).log = attempts state.log ∧
      attemptRecord (state.publish options).log = attemptRecord state.log ∧
      ∀ event ∈ state.log, event ∈ (state.publish options).log := by
  unfold SupervisorState.publish
  split
  · refine ⟨rfl, rfl, ?_, ?_, ?_, fun event h => List.mem_append_left _ h⟩
    · exact restarts_concat _ _
    · exact attempts_concat _ _
    · exact attemptRecord_concat _ _
  · exact ⟨rfl, rfl, rfl, rfl, rfl, fun event h => h⟩

/-- An accepted transition. -/
theorem transition_ok (husable : PolicyUsable policy) {event : GwChannelEvent}
    {next : GwChannelRuntime} (hstep : ChannelStep policy state.runtime event next) :
    state.transition policy event =
      (⟨next, state.snapshot, state.log ++ [.transition event (.ok ()) next]⟩, .ok ()) := by
  have hcall := (gwChannelTransition_ok_iff husable).mpr hstep
  unfold SupervisorState.transition
  simp only [hcall, SupervisorState.note]

/-- An accepted transition and the snapshot's update.  A restart needs a second that
has passed since the last one. -/
theorem enter_inv (husable : PolicyUsable policy) (hlog : LogInv options state.log)
    (hruntime : RuntimeInvariant policy state.runtime)
    (hcounted : state.runtime.totalRestarts = restarts state.log % 2 ^ 64)
    {event : GwChannelEvent} {next : GwChannelRuntime}
    (hstep : ChannelStep policy state.runtime event next)
    (htimed : event = .backoffElapsed → ClockMonotone state.log →
      ((restarts state.log : Int) + 1) * 1000000000 ≤ lastReading state.log)
    (snapshot : GwChannelSnapshot) (label : Bytes) :
    SupervisorInv policy options
      (SupervisorState.updateRuntime label
        ⟨next, snapshot, state.log ++ [.transition event (.ok ()) next]⟩) := by
  have hcount := restarts_transition state.log event next
  refine ⟨⟨Log.each_concat.mpr ⟨hlog.right, rfl⟩, ?_⟩, hruntime.step husable hstep, rfl,
    ⟨event, List.mem_append_right _ (List.mem_singleton.mpr rfl)⟩, ?_⟩
  · simp only [SupervisorState.updateRuntime]
    rw [clockMonotone_concat_of_none _ rfl, lastReading_concat_of_none _ rfl, hcount]
    intro hmonotone
    split
    · rename_i hrestart
      have := htimed hrestart hmonotone
      push_cast
      exact this
    · exact hlog.timed hmonotone
  · simp only [SupervisorState.updateRuntime]
    rw [hcount]
    cases hstep with
    | backoffElapsed hstate =>
      rw [if_pos rfl]
      simp only
      rw [hcounted, Nat.mod_add_mod]
    | _ => exact hcounted

theorem SupervisorInv.enter (husable : PolicyUsable policy) (h : SupervisorInv policy options state)
    {event : GwChannelEvent} {next : GwChannelRuntime}
    (hstep : ChannelStep policy state.runtime event next)
    (htimed : event = .backoffElapsed → ClockMonotone state.log →
      ((restarts state.log : Int) + 1) * 1000000000 ≤ lastReading state.log)
    (snapshot : GwChannelSnapshot) (label : Bytes) :
    SupervisorInv policy options
      (SupervisorState.updateRuntime label
        ⟨next, snapshot, state.log ++ [.transition event (.ok ()) next]⟩) :=
  enter_inv husable h.log h.runtime h.counted hstep htimed snapshot label

end Keeps

end LearnApue.Gateway
