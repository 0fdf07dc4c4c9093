import LearnApue.Gateway.WorkerAttempt

set_option autoImplicit false
set_option maxRecDepth 2048

/-!
# Gateway: the watchdog of a worker attempt

`run_worker_attempt` keeps three timers: the start of the worker, its first
progress record and its last one.  Each is the clock that was read when the event
happened, and the log holds the record and the clock read next to each other.  So
what the timers say can be compared with what the log says, in every turn of the
loop and for every order of records, clock values and stop requests.
-/

namespace LearnApue.Gateway

open LearnApue.Foundation

/-! ## Times -/

/-- The nanoseconds of a number of seconds. -/
def secondsNs (seconds : Int) : Int := seconds * 1000000000

/-- `timeout_elapsed` compares the nanoseconds since the start with the timeout. -/
theorem timeoutElapsed_iff {start : Timespec} {clock : ClockAnswer} {timeoutSec : Int} :
    timeoutElapsed start clock timeoutSec = true ↔
      ∃ now, clock = some now ∧ start.nanoseconds + secondsNs timeoutSec ≤ now.nanoseconds := by
  cases clock with
  | none =>
    constructor
    · intro h
      cases h
    · rintro ⟨now, h, -⟩
      cases h
  | some now =>
    constructor
    · intro h
      exact ⟨now, rfl, (elapsed_iff start now timeoutSec).mp h⟩
    · rintro ⟨_, ⟨⟩, h⟩
      exact (elapsed_iff start _ timeoutSec).mpr h

/-! ## What the log says about records -/

/-- No progress record was completed. -/
def NoRecord (events : List SupervisorEvent) : Prop := ∀ progress, .record progress ∉ events

/-- The STABLE event was not issued. -/
def NoStable (events : List SupervisorEvent) : Prop :=
  ∀ result runtime, .transition .stable result runtime ∉ events

/-- The first record was completed at a time: the clock was read right after it. -/
def FirstRecordAt (events : List SupervisorEvent) (time : Timespec) : Prop :=
  ∃ before progress after,
    events = before ++ .record progress :: .clock (some time) :: after ∧ NoRecord before

/-- The last record was completed at a time. -/
def LastRecordAt (events : List SupervisorEvent) (time : Timespec) : Prop :=
  ∃ before progress after,
    events = before ++ .record progress :: .clock (some time) :: after ∧ NoRecord after

/-- When the STABLE event may be issued: it was not issued before, and the clock
just read is at least `stable_run_sec` after the first record. -/
def StableRight (policy : GwRetryPolicy) (past : List SupervisorEvent) :
    SupervisorEvent → Prop
  | .transition .stable _ _ =>
      NoStable past ∧ ∃ earlier first now, past = earlier ++ [.clock (some now)] ∧
        FirstRecordAt earlier first ∧
        first.nanoseconds + secondsNs policy.stableRunSec ≤ now.nanoseconds
  | _ => True

/-- The events that neither complete a record nor issue the STABLE event. -/
def SupervisorEvent.untimed : SupervisorEvent → Bool
  | .record _ => false
  | .transition .stable _ _ => false
  | _ => true

/-- The records of two runs of events are those of both. -/
theorem noRecord_append {events more : List SupervisorEvent} :
    NoRecord (events ++ more) ↔ NoRecord events ∧ NoRecord more := by
  unfold NoRecord
  simp only [List.mem_append, not_or, forall_and]

theorem noStable_append {events more : List SupervisorEvent} :
    NoStable (events ++ more) ↔ NoStable events ∧ NoStable more := by
  unfold NoStable
  simp only [List.mem_append, not_or, forall_and]

/-- What happens without a clock is no record. -/
theorem noRecord_of_untimed {events : List SupervisorEvent}
    (h : ∀ event ∈ events, event.untimed = true) : NoRecord events := by
  intro progress hmem
  cases h _ hmem

theorem noStable_of_untimed {events : List SupervisorEvent}
    (h : ∀ event ∈ events, event.untimed = true) : NoStable events := by
  intro result runtime hmem
  cases h _ hmem

/-- The first record stays the first one. -/
theorem FirstRecordAt.append {events : List SupervisorEvent} {time : Timespec}
    (h : FirstRecordAt events time) (more : List SupervisorEvent) :
    FirstRecordAt (events ++ more) time := by
  obtain ⟨before, progress, after, rfl, hbefore⟩ := h
  exact ⟨before, progress, after ++ more, by simp, hbefore⟩

/-- A record stays the last one until another comes. -/
theorem LastRecordAt.append {events : List SupervisorEvent} {time : Timespec}
    (h : LastRecordAt events time) {more : List SupervisorEvent} (hmore : NoRecord more) :
    LastRecordAt (events ++ more) time := by
  obtain ⟨before, progress, after, rfl, hafter⟩ := h
  exact ⟨before, progress, after ++ more, by simp, noRecord_append.mpr ⟨hafter, hmore⟩⟩

theorem LastRecordAt.not_noRecord {events : List SupervisorEvent} {time : Timespec}
    (h : LastRecordAt events time) : ¬ NoRecord events := by
  obtain ⟨before, progress, after, rfl, -⟩ := h
  intro hnone
  exact hnone progress (by simp)

/-- Behind the last record there is no other one. -/
theorem last_record_eq {first second : Timespec} {progress progress' : GwWorkerProgress}
    {between after after' : List SupervisorEvent}
    (h : .record progress :: .clock (some first) :: after =
      between ++ .record progress' :: .clock (some second) :: after')
    (hafter : NoRecord after) : first = second := by
  cases between with
  | nil =>
    cases h
    rfl
  | cons event between =>
    cases between with
    | nil => cases h
    | cons event' between =>
      obtain ⟨-, h⟩ := List.cons.inj h
      obtain ⟨-, h⟩ := List.cons.inj h
      exact absurd (by rw [h]; simp) (hafter progress')

/-- A log has one last record. -/
theorem LastRecordAt.unique {events : List SupervisorEvent} {first second : Timespec}
    (hfirst : LastRecordAt events first) (hsecond : LastRecordAt events second) :
    first = second := by
  obtain ⟨before, progress, after, rfl, hafter⟩ := hfirst
  obtain ⟨before', progress', after', heq, hafter'⟩ := hsecond
  rcases List.append_eq_append_iff.mp heq with ⟨between, -, h⟩ | ⟨between, -, h⟩
  · exact last_record_eq h hafter
  · exact (last_record_eq h hafter').symm

/-- Only a transition is held against the clock. -/
theorem stableRight_of_untimed {policy : GwRetryPolicy} {past : List SupervisorEvent}
    {event : SupervisorEvent} (h : event.untimed = true) : StableRight policy past event := by
  cases event with
  | transition kind result runtime =>
    cases kind with
    | stable => cases h
    | _ => trivial
  | _ => trivial

/-! ## The timers of an attempt -/

/-- What the timers say is what the log says since the worker started. -/
structure TimedEvents (policy : GwRetryPolicy) (state : AttemptState)
    (events : List SupervisorEvent) : Prop where
  silent : state.receivedProgress = false → NoRecord events
  first : state.receivedProgress = true → FirstRecordAt events state.runningSince
  last : state.receivedProgress = true → LastRecordAt events state.lastProgressAt
  unreported : state.stableReported = false → NoStable events
  stable : Log.Each (StableRight policy) events

/-- The states of an attempt whose worker started at a time with a log: the timers
are right, and the outcome is one of some. -/
structure Timed (policy : GwRetryPolicy) (base : List SupervisorEvent) (startedAt : Timespec)
    (among : WorkerAttemptOutcome → Prop) (state : AttemptState) : Prop where
  started : state.startedAt = startedAt
  outcome : among state.outcome
  events : ∃ events, state.shared.log = base ++ events ∧ TimedEvents policy state events

/-- A log in which the STABLE event is issued as it may be. -/
def TimedLog (policy : GwRetryPolicy) (base log : List SupervisorEvent) : Prop :=
  ∃ events, log = base ++ events ∧ Log.Each (StableRight policy) events

/-- The states in which an attempt leaves its loop. -/
structure TimedLeft (policy : GwRetryPolicy) (base : List SupervisorEvent)
    (among : WorkerAttemptOutcome → Prop) (state : AttemptState) : Prop where
  outcome : among state.outcome
  log : TimedLog policy base state.shared.log

/-- The three ends of a block. -/
def BlockTimed (policy : GwRetryPolicy) (base : List SupervisorEvent) (startedAt : Timespec)
    (among : WorkerAttemptOutcome → Prop) (flow : AttemptFlow) : Prop :=
  flow.Meets (Timed policy base startedAt among) (TimedLeft policy base among) fun state =>
    TimedLog policy base state.shared.log

section Blocks

variable {strtod : Strtod} {config : GwConfig} {channel : GwChannelConfig}
  {options : GwSupervisorOptions} {answers : IterationAnswers} {base : List SupervisorEvent}
  {startedAt : Timespec} {among : WorkerAttemptOutcome → Prop} {policy : GwRetryPolicy}
  {state : AttemptState}

theorem Timed.timedLog (h : Timed policy base startedAt among state) :
    TimedLog policy base state.shared.log := by
  obtain ⟨events, hlog, htimed⟩ := h.events
  exact ⟨events, hlog, htimed.stable⟩

theorem Timed.left (h : Timed policy base startedAt among state) :
    TimedLeft policy base among state := ⟨h.outcome, h.timedLog⟩

theorem Timed.next (h : Timed policy base startedAt among state) :
    BlockTimed policy base startedAt among (.next state) := h

theorem Timed.leave (h : Timed policy base startedAt among state) :
    BlockTimed policy base startedAt among (.leave state) := h.left

/-- Events without a clock change nothing that is known of the times. -/
theorem each_untimed {past more : List SupervisorEvent} (hpast : Log.Each (StableRight policy) past)
    (hmore : ∀ event ∈ more, event.untimed = true) :
    Log.Each (StableRight policy) (past ++ more) := by
  refine Log.each_append.mpr ⟨hpast, fun earlier event rest heq => ?_⟩
  exact stableRight_of_untimed (hmore event (by rw [heq]; simp))

theorem TimedLog.untimed {log more : List SupervisorEvent} (h : TimedLog policy base log)
    (hmore : ∀ event ∈ more, event.untimed = true) : TimedLog policy base (log ++ more) := by
  obtain ⟨events, rfl, hright⟩ := h
  exact ⟨events ++ more, by rw [List.append_assoc], each_untimed hright hmore⟩

theorem TimedEvents.untimed {events more : List SupervisorEvent}
    (h : TimedEvents policy state events) (hmore : ∀ event ∈ more, event.untimed = true) :
    TimedEvents policy state (events ++ more) where
  silent := fun hreceived =>
    noRecord_append.mpr ⟨h.silent hreceived, noRecord_of_untimed hmore⟩
  first := fun hreceived => (h.first hreceived).append more
  last := fun hreceived => (h.last hreceived).append (noRecord_of_untimed hmore)
  unreported := fun hreported =>
    noStable_append.mpr ⟨h.unreported hreported, noStable_of_untimed hmore⟩
  stable := each_untimed h.stable hmore

/-- A state with the same timers and a longer log. -/
theorem Timed.extend (h : Timed policy base startedAt among state) (after : AttemptState)
    (more : List SupervisorEvent) (hlog : after.shared.log = state.shared.log ++ more)
    (hmore : ∀ event ∈ more, event.untimed = true) (houtcome : among after.outcome)
    (hstarted : after.startedAt = state.startedAt)
    (hreceived : after.receivedProgress = state.receivedProgress)
    (hfirst : after.runningSince = state.runningSince)
    (hlast : after.lastProgressAt = state.lastProgressAt)
    (hreported : after.stableReported = state.stableReported) :
    Timed policy base startedAt among after := by
  obtain ⟨events, hevents, htimed⟩ := h.events
  have hmoved : TimedEvents policy after events := by
    refine ⟨?_, ?_, ?_, ?_, htimed.stable⟩
    · rw [hreceived]
      exact htimed.silent
    · rw [hreceived, hfirst]
      exact htimed.first
    · rw [hreceived, hlast]
      exact htimed.last
    · rw [hreported]
      exact htimed.unreported
  refine ⟨hstarted.trans h.started, houtcome, events ++ more, ?_, hmoved.untimed hmore⟩
  rw [hlog, hevents, List.append_assoc]

/-- A system call on the worker is not timed. -/
theorem untimed_system (calls : List SystemCall) :
    ∀ event ∈ calls.map SupervisorEvent.system, event.untimed = true := by
  intro event hevent
  obtain ⟨call, -, rfl⟩ := List.mem_map.mp hevent
  rfl

theorem untimed_printed (lines : List Bytes) :
    ∀ event ∈ lines.map SupervisorEvent.printed, event.untimed = true := by
  intro event hevent
  obtain ⟨line, -, rfl⟩ := List.mem_map.mp hevent
  rfl

theorem untimed_singleton {event : SupervisorEvent} (h : event.untimed = true) :
    ∀ other ∈ [event], other.untimed = true := by
  intro other hother
  rw [List.mem_singleton.mp hother]
  exact h

/-- A transition that is not STABLE leaves the timers. -/
theorem Timed.entered (h : Timed policy base startedAt among state) (retry : GwRetryPolicy)
    {event : GwChannelEvent} (hevent : event ≠ .stable) :
    Timed policy base startedAt among
      { state with shared := (state.shared.transition retry event).1 } := by
  have huntimed : ∀ result runtime,
      (SupervisorEvent.transition event result runtime).untimed = true := by
    intro result runtime
    cases event with
    | stable => exact absurd rfl hevent
    | _ => rfl
  obtain ⟨result, runtime, hlog⟩ : ∃ result runtime,
      (state.shared.transition retry event).1.log =
        state.shared.log ++ [.transition event result runtime] := ⟨_, _, rfl⟩
  refine h.extend _ _ hlog (untimed_singleton (huntimed result runtime)) h.outcome ?_ ?_ ?_ ?_ ?_
    <;> rfl

/-- The log may grow by events that the timers do not follow. -/
theorem Timed.note (h : Timed policy base startedAt among state) {more : List SupervisorEvent}
    (hmore : ∀ event ∈ more, event.untimed = true) :
    Timed policy base startedAt among (state.note more) := by
  refine h.extend _ more ?_ hmore h.outcome ?_ ?_ ?_ ?_ ?_ <;> rfl

/-- The handle may change, with the calls that changed it. -/
theorem Timed.reply (h : Timed policy base startedAt among state) (process : GwProcess)
    (calls : List SystemCall) :
    Timed policy base startedAt among
      ({ state with process := process }.note (calls.map .system)) := by
  refine h.extend _ (calls.map .system) ?_ (untimed_system calls) h.outcome ?_ ?_ ?_ ?_ ?_ <;> rfl

/-- The worker's messages may be printed. -/
theorem Timed.lines (h : Timed policy base startedAt among state) (lines : StderrLineBuffer)
    (printed : List Bytes) :
    Timed policy base startedAt among
      ({ state with stderrLines := lines }.note (printed.map .printed)) := by
  refine h.extend _ (printed.map .printed) ?_ (untimed_printed printed) h.outcome ?_ ?_ ?_ ?_ ?_ <;> rfl

/-- The parser may take in bytes. -/
theorem Timed.parsed (h : Timed policy base startedAt among state) (parser : GwProgressParser)
    (progress : GwWorkerProgress) :
    Timed policy base startedAt among
      { state with parser := parser, latestProgress := progress } := by
  refine h.extend _ [] ?_ (List.forall_mem_nil _) h.outcome ?_ ?_ ?_ ?_ ?_
  · exact (List.append_nil _).symm
  all_goals rfl

/-- The outcome may be decided and the worker seen to exit. -/
theorem Timed.decided (h : Timed policy base startedAt among state)
    {outcome : WorkerAttemptOutcome} (houtcome : among outcome) (exited : Bool) :
    Timed policy base startedAt among { state with outcome := outcome, exited := exited } := by
  refine h.extend _ [] ?_ (List.forall_mem_nil _) houtcome ?_ ?_ ?_ ?_ ?_
  · exact (List.append_nil _).symm
  all_goals rfl

/-- Publishing adds at most a snapshot to the log. -/
theorem publish_log (shared : SupervisorState) :
    ∃ more, (shared.publish options).log = shared.log ++ more ∧
      ∀ event ∈ more, event.untimed = true := by
  unfold SupervisorState.publish
  split
  · exact ⟨_, rfl, untimed_singleton rfl⟩
  · exact ⟨[], (List.append_nil _).symm, List.forall_mem_nil _⟩

/-- Publishing leaves the timers. -/
theorem Timed.shown (h : Timed policy base startedAt among state) (shared : SupervisorState)
    (hlog : shared.log = state.shared.log) :
    Timed policy base startedAt among { state with shared := shared.publish options } := by
  obtain ⟨more, hmore, huntimed⟩ := @publish_log options shared
  refine h.extend _ more ?_ huntimed h.outcome ?_ ?_ ?_ ?_ ?_
  · rw [← hlog]
    exact hmore
  all_goals rfl

/-! ## The blocks -/

/-- A requested stop ends the attempt as such, and touches no time. -/
theorem stopBlock_timed (hstop : among .stopRequested)
    (h : Timed policy base startedAt among state) :
    BlockTimed policy base startedAt among (stopBlock config options answers state) := by
  unfold stopBlock
  split
  · cases gwProcessStop state.process (stopTimeoutMs config) answers.stopProcess with
    | none => exact h.timedLog.untimed (untimed_singleton rfl)
    | some reply =>
      have hrequested : ∀ event ∈ SupervisorEvent.stopRequested :: reply.calls.map .system,
          event.untimed = true := List.forall_mem_cons.mpr ⟨rfl, untimed_system reply.calls⟩
      have hreply : Timed policy base startedAt among
          ({ state with process := reply.process }.note
            (.stopRequested :: reply.calls.map .system)) := by
        refine h.extend _ _ ?_ hrequested h.outcome ?_ ?_ ?_ ?_ ?_ <;> rfl
      dsimp only
      cases reply.result with
      | error error => exact hreply.leave
      | ok value => exact hreply.decided hstop true
  · exact h.next

/-- A failed `poll` is left to the next turn. -/
theorem pollBlock_timed (h : Timed policy base startedAt among state) :
    BlockTimed policy base startedAt among (pollBlock answers state) := by
  unfold pollBlock
  split
  · split
    · exact h.next
    · exact h.leave
  · exact h.next

theorem publishProgress_timed (h : Timed policy base startedAt among state) :
    Timed policy base startedAt among (publishProgress options state) :=
  h.shown _ rfl

theorem stderrBlock_timed {ready : Bool} (h : Timed policy base startedAt among state) :
    BlockTimed policy base startedAt among (stderrBlock channel answers ready state) := by
  unfold stderrBlock
  cases ready with
  | false => exact h.next
  | true =>
    rw [if_pos rfl]
    have hread := h.reply (gwProcessRead state.process .stderr answers.stderrRead).process
      (gwProcessRead state.process .stderr answers.stderrRead).calls
    dsimp only
    cases (gwProcessRead state.process .stderr answers.stderrRead).result with
    | error error => exact hread.leave
    | ok read =>
      dsimp only
      split
      · exact ((hread.lines _ _).lines _ _).next
      · exact (hread.lines _ _).next

/-- The exit of the worker is noted without a time: the timeouts stay as they are. -/
theorem exitBlock_timed (h : Timed policy base startedAt among state) :
    BlockTimed policy base startedAt among (exitBlock answers state) := by
  unfold exitBlock
  split
  · exact h.next
  · have hpoll := h.reply (gwProcessPollExit state.process answers.wait).process
      (gwProcessPollExit state.process answers.wait).calls
    dsimp only
    cases (gwProcessPollExit state.process answers.wait).result with
    | error error => exact hpoll.leave
    | ok exited => exact hpoll.decided hpoll.outcome exited

/-- The clock read behind a record sets the timers: the last record is this one, and
the first one too when there was none. -/
theorem TimedEvents.recorded {events : List SupervisorEvent}
    (h : TimedEvents policy state events) (progress : GwWorkerProgress) (now : Timespec)
    (after : AttemptState) (hreceived : after.receivedProgress = true)
    (hlast : after.lastProgressAt = now)
    (hfirst : after.runningSince = if state.receivedProgress then state.runningSince else now)
    (hreported : after.stableReported = state.stableReported) :
    TimedEvents policy after (events ++ [.record progress, .clock (some now)]) where
  silent := fun hnone => absurd hnone (by rw [hreceived]; simp)
  first := by
    intro _
    cases hbefore : state.receivedProgress with
    | true =>
      rw [hfirst, if_pos hbefore]
      exact (h.first hbefore).append _
    | false =>
      rw [hfirst, if_neg (by rw [hbefore]; simp)]
      exact ⟨events, progress, [], rfl, h.silent hbefore⟩
  last := by
    intro _
    rw [hlast]
    exact ⟨events, progress, [], rfl, by simp [NoRecord]⟩
  unreported := by
    rw [hreported]
    exact fun hnone => noStable_append.mpr ⟨h.unreported hnone, by simp [NoStable]⟩
  stable := by
    rw [show events ++ [.record progress, .clock (some now)] =
      (events ++ [.record progress]) ++ [.clock (some now)] by simp]
    exact Log.each_concat.mpr ⟨Log.each_concat.mpr ⟨h.stable, trivial⟩, trivial⟩

/-- A record sets the time of the last one, and that of the first one once. -/
theorem Timed.recorded (h : Timed policy base startedAt among state)
    (progress : GwWorkerProgress) (now : Timespec) (after : AttemptState)
    (hlog : after.shared.log = state.shared.log ++ [.record progress, .clock (some now)])
    (houtcome : after.outcome = state.outcome) (hstarted : after.startedAt = state.startedAt)
    (hreceived : after.receivedProgress = true) (hlast : after.lastProgressAt = now)
    (hfirst : after.runningSince = if state.receivedProgress then state.runningSince else now)
    (hreported : after.stableReported = state.stableReported) :
    Timed policy base startedAt among after := by
  obtain ⟨events, hevents, htimed⟩ := h.events
  refine ⟨hstarted.trans h.started, houtcome ▸ h.outcome, _, ?_,
    htimed.recorded progress now after hreceived hlast hfirst hreported⟩
  rw [hlog, hevents, List.append_assoc]

/-- A record is completed; the clock is read right behind it. -/
theorem progressBlock_timed (herror : among .internalError)
    (h : Timed policy base startedAt among state) (progress : GwWorkerProgress) :
    BlockTimed policy base startedAt among
      (progressBlock config options answers (state.note [.record progress])) := by
  have hrecorded := fun now => h.recorded progress now
  unfold progressBlock
  cases answers.progressClock with
  | none =>
    refine ⟨herror, ?_⟩
    obtain ⟨events, hevents, htimed⟩ := h.events
    refine ⟨events ++ [.record progress, .clock none], ?_, ?_⟩
    · simp [AttemptState.note, SupervisorState.note, hevents]
    · rw [show events ++ [.record progress, .clock none] =
        (events ++ [.record progress]) ++ [.clock none] by simp]
      exact Log.each_concat.mpr ⟨Log.each_concat.mpr ⟨htimed.stable, trivial⟩, trivial⟩
  | some now =>
    dsimp only
    cases hreceived : state.receivedProgress with
    | true =>
      have hagain : Timed policy base startedAt among
          { (state.note [.record progress]).note [.clock (some now)] with
            lastProgressAt := now } := by
        refine hrecorded now _ ?_ rfl rfl hreceived rfl ?_ rfl
        · simp [AttemptState.note, SupervisorState.note]
        · rw [if_pos hreceived]
          rfl
      rw [if_pos (show ((state.note [.record progress]).note
        [.clock (some now)]).receivedProgress = true from hreceived)]
      exact (publishProgress_timed hagain).next
    | false =>
      have hfirst : Timed policy base startedAt among
          { (state.note [.record progress]).note [.clock (some now)] with
            lastProgressAt := now, receivedProgress := true, runningSince := now } := by
        refine hrecorded now _ ?_ rfl rfl rfl rfl ?_ rfl
        · simp [AttemptState.note, SupervisorState.note]
        · rw [if_neg (by rw [hreceived]; simp)]
      have hentered := hfirst.entered config.defaults
        (show GwChannelEvent.progress ≠ .stable by simp)
      have hnone : ¬ ((state.note [.record progress]).note
          [.clock (some now)]).receivedProgress = true := by
        intro hsome
        rw [show ((state.note [.record progress]).note [.clock (some now)]).receivedProgress =
          state.receivedProgress from rfl, hreceived] at hsome
        cases hsome
      rw [if_neg hnone]
      split
      · exact ⟨herror, hentered.timedLog⟩
      · exact (publishProgress_timed hentered).next

/-- The records that are read carry the time of the clock reading in front of them. -/
theorem stdoutBlock_timed (herror : among .internalError) {ready : Bool}
    (h : Timed policy base startedAt among state) :
    BlockTimed policy base startedAt among
      (stdoutBlock strtod config options answers ready state) := by
  unfold stdoutBlock
  cases ready with
  | false => exact h.next
  | true =>
    rw [if_pos rfl]
    have hread := h.reply (gwProcessRead state.process .stdout answers.stdoutRead).process
      (gwProcessRead state.process .stdout answers.stdoutRead).calls
    dsimp only
    cases (gwProcessRead state.process .stdout answers.stdoutRead).result with
    | error error => exact hread.leave
    | ok read =>
      dsimp only
      generalize gwProgressParserConsume strtod _ read.data _ = consumed
      obtain ⟨call, result⟩ := consumed
      have hparsed := hread.parsed call.parser call.progress
      cases result with
      | error error => exact hparsed.leave
      | ok value =>
        dsimp only
        split
        · exact progressBlock_timed herror hparsed _
        · exact hparsed.next

/-- The STABLE event is issued when the clock is late enough after the first record. -/
theorem stableRight_issued {events : List SupervisorEvent} (h : TimedEvents policy state events)
    (hreceived : state.receivedProgress = true) (hreported : state.stableReported = false)
    {clock : ClockAnswer}
    (helapsed : timeoutElapsed state.runningSince clock policy.stableRunSec = true)
    (result : Except GwError Unit) (runtime : GwChannelRuntime) :
    StableRight policy (events ++ [.clock clock]) (.transition .stable result runtime) := by
  obtain ⟨now, rfl, hlate⟩ := timeoutElapsed_iff.mp helapsed
  refine ⟨noStable_append.mpr ⟨h.unreported hreported, by simp [NoStable]⟩, events,
    state.runningSince, now, rfl, h.first hreceived, hlate⟩

theorem TimedEvents.reported {events : List SupervisorEvent} (h : TimedEvents policy state events)
    (hreceived : state.receivedProgress = true) (hreported : state.stableReported = false)
    {clock : ClockAnswer}
    (helapsed : timeoutElapsed state.runningSince clock policy.stableRunSec = true)
    (result : Except GwError Unit) (runtime : GwChannelRuntime) (shared : SupervisorState) :
    TimedEvents policy { state with shared := shared, stableReported := true }
      (events ++ [.clock clock] ++ [.transition .stable result runtime]) where
  silent := fun hnone => absurd hnone (by simp [hreceived])
  first := fun _ => ((h.first hreceived).append _).append _
  last := fun _ => ((h.last hreceived).append (by simp [NoRecord])).append (by simp [NoRecord])
  unreported := fun hnone => nomatch hnone
  stable := Log.each_concat.mpr ⟨Log.each_concat.mpr ⟨h.stable, trivial⟩,
    stableRight_issued h hreceived hreported helapsed result runtime⟩

/-- `STABLE` is entered at the first check that finds the policy's time behind the first
record, and not again. -/
theorem stableBlock_timed (herror : among .internalError)
    (h : Timed config.defaults base startedAt among state) :
    BlockTimed config.defaults base startedAt among
      (stableBlock config options answers state) := by
  unfold stableBlock
  split
  · rename_i hguard
    obtain ⟨-, hreceived, hreported⟩ := hguard
    dsimp only
    split
    · rename_i helapsed
      obtain ⟨events, hevents, htimed⟩ := h.events
      obtain ⟨result, runtime, hlog⟩ : ∃ result runtime,
          ((state.note [.clock answers.stableClock]).shared.transition config.defaults
            .stable).1.log =
            state.shared.log ++ [.clock answers.stableClock] ++
              [.transition .stable result runtime] := ⟨_, _, rfl⟩
      have hreported' : Timed config.defaults base startedAt among
          { state.note [.clock answers.stableClock] with
            shared := ((state.note [.clock answers.stableClock]).shared.transition
              config.defaults .stable).1
            stableReported := true } := by
        refine ⟨h.started, h.outcome, _, ?_,
          htimed.reported hreceived hreported helapsed result runtime _⟩
        rw [hlog, hevents, List.append_assoc, List.append_assoc, List.append_assoc]
      split
      · exact ⟨herror, hreported'.timedLog⟩
      · exact (hreported'.shown (((state.note [.clock answers.stableClock]).shared.transition
          config.defaults .stable).1.updateRuntime (ascii "stable")) rfl).next
    · exact (h.note (untimed_singleton rfl)).next
  · exact h.next

end Blocks

/-! ## The timeout check -/

section Check

variable (strtod : Strtod) (config : GwConfig) (channel : GwChannelConfig)
  (options : GwSupervisorOptions) (answers : IterationAnswers)

/-- The loop body before its timeouts. -/
def untilCheck (state : AttemptState) : AttemptFlow :=
  (stopBlock config options answers state).bind fun state =>
    (pollBlock answers state).bind fun state =>
      let ready := readyDescriptors state.process answers.poll
      (stdoutBlock strtod config options answers ready.1 state).bind fun state =>
        (stderrBlock channel answers ready.2 state).bind fun state =>
          (exitBlock answers state).bind fun state => stableBlock config options answers state

/-- The local `timeout_outcome`, pending where the check is passed over. -/
def watchdogDecision (state : AttemptState) : WorkerAttemptOutcome :=
  if state.exited = false ∧ state.outcome = .pending then timeoutOutcome config answers state
  else .pending

/-- `gw_process_stop` for a timeout, and what its result leads to. -/
def stopForTimeout (outcome : WorkerAttemptOutcome) (state : AttemptState) : AttemptFlow :=
  match gwProcessStop state.process (stopTimeoutMs config) answers.timeoutStop with
  | none => .blocked state
  | some reply =>
      let state := { state with process := reply.process }.note (reply.calls.map .system)
      match reply.result with
      | .error _ => .leave { state with outcome := .internalError }
      | .ok _ => .next { state with outcome := outcome, exited := true }

end Check

/-- The turns of the loop that reach the timeout check, with the state there. -/
def timeoutChecks (strtod : Strtod) (config : GwConfig) (channel : GwChannelConfig)
    (options : GwSupervisorOptions) (iterations : List IterationAnswers) (start : AttemptState) :
    List (IterationAnswers × AttemptState) :=
  (Flow.turns attemptDone (attemptIteration strtod config channel options) iterations
    start).filterMap fun turn =>
      match untilCheck strtod config channel options turn.1 turn.2 with
      | .next check => some (turn.1, check)
      | _ => none

/-- The watchdog is exact at a check, by the log of the attempt so far. -/
structure CheckExact (config : GwConfig) (startedAt : Timespec) (events : List SupervisorEvent)
    (answers : IterationAnswers) (check : AttemptState) : Prop where
  startup : watchdogDecision config answers check = .startupTimeout ↔
    check.exited = false ∧ check.outcome = .pending ∧ NoRecord events ∧
      ∃ now, answers.timeoutClock = some now ∧
        startedAt.nanoseconds + secondsNs config.defaults.startupTimeoutSec ≤ now.nanoseconds
  progress : watchdogDecision config answers check = .progressTimeout ↔
    check.exited = false ∧ check.outcome = .pending ∧
      ∃ last now, LastRecordAt events last ∧ answers.timeoutClock = some now ∧
        last.nanoseconds + secondsNs config.defaults.progressTimeoutSec ≤ now.nanoseconds
  stops : watchdogDecision config answers check ≠ .pending →
    timeoutBlock config answers check =
      stopForTimeout config answers (watchdogDecision config answers check)
        (check.note [.clock answers.timeoutClock])
  passes : watchdogDecision config answers check = .pending →
    timeoutBlock config answers check = .next check ∨
      timeoutBlock config answers check = .next (check.note [.clock answers.timeoutClock])

section Check

variable {strtod : Strtod} {config : GwConfig} {channel : GwChannelConfig}
  {options : GwSupervisorOptions} {answers : IterationAnswers} {base : List SupervisorEvent}
  {startedAt : Timespec} {among : WorkerAttemptOutcome → Prop} {state : AttemptState}

theorem attemptIteration_eq (state : AttemptState) :
    attemptIteration strtod config channel options answers state =
      (untilCheck strtod config channel options answers state).bind
        (timeoutBlock config answers) := by
  unfold attemptIteration untilCheck
  simp only [Flow.bind_assoc]

/-- What a turn does in front of its timeout check. -/
theorem untilCheck_timed (hstop : among .stopRequested) (herror : among .internalError)
    (h : Timed config.defaults base startedAt among state) :
    BlockTimed config.defaults base startedAt among
      (untilCheck strtod config channel options answers state) := by
  refine (stopBlock_timed hstop h).bind fun state h => ?_
  refine (pollBlock_timed h).bind fun state h => ?_
  refine (stdoutBlock_timed herror h).bind fun state h => ?_
  refine (stderrBlock_timed h).bind fun state h => ?_
  refine (exitBlock_timed h).bind fun state h => ?_
  exact stableBlock_timed herror h

/-- The check stops the worker when it decided an outcome. -/
theorem timeoutBlock_eq (state : AttemptState) :
    (watchdogDecision config answers state ≠ .pending ∧
      timeoutBlock config answers state =
        stopForTimeout config answers (watchdogDecision config answers state)
          (state.note [.clock answers.timeoutClock])) ∨
    (watchdogDecision config answers state = .pending ∧
      (timeoutBlock config answers state = .next state ∨
        timeoutBlock config answers state = .next (state.note [.clock answers.timeoutClock]))) := by
  unfold watchdogDecision timeoutBlock
  split
  · by_cases hdecided : timeoutOutcome config answers state = .pending
    · exact Or.inr ⟨hdecided, Or.inr (by simp [hdecided])⟩
    · refine Or.inl ⟨hdecided, ?_⟩
      dsimp only
      rw [if_pos hdecided]
      rfl
  · exact Or.inr ⟨rfl, Or.inl rfl⟩

/-- A timeout stops the worker before the attempt ends with it. -/
theorem stopForTimeout_timed (herror : among .internalError) {outcome : WorkerAttemptOutcome}
    (houtcome : among outcome) (h : Timed config.defaults base startedAt among state) :
    BlockTimed config.defaults base startedAt among
      (stopForTimeout config answers outcome state) := by
  unfold stopForTimeout
  cases gwProcessStop state.process (stopTimeoutMs config) answers.timeoutStop with
  | none => exact h.timedLog
  | some reply =>
    have hreply := h.reply reply.process reply.calls
    dsimp only
    cases reply.result with
    | error error => exact ⟨herror, hreply.timedLog⟩
    | ok value => exact hreply.decided houtcome true

theorem timeoutBlock_timed (herror : among .internalError)
    (hdecided : watchdogDecision config answers state ≠ .pending →
      among (watchdogDecision config answers state))
    (h : Timed config.defaults base startedAt among state) :
    BlockTimed config.defaults base startedAt among (timeoutBlock config answers state) := by
  have hclock : Timed config.defaults base startedAt among
      (state.note [.clock answers.timeoutClock]) := h.note (untimed_singleton rfl)
  rcases @timeoutBlock_eq config answers state with
    ⟨hsome, heq⟩ | ⟨-, heq | heq⟩
  · rw [heq]
    exact stopForTimeout_timed herror (hdecided hsome) hclock
  · rw [heq]
    exact h.next
  · rw [heq]
    exact hclock.next

/-- The check looks at the start while there was no record. -/
theorem watchdogDecision_silent (hreceived : state.receivedProgress = false) :
    watchdogDecision config answers state =
      if (state.exited = false ∧ state.outcome = .pending) ∧
          timeoutElapsed state.startedAt answers.timeoutClock
            config.defaults.startupTimeoutSec = true
      then .startupTimeout else .pending := by
  unfold watchdogDecision timeoutOutcome
  simp only [hreceived, ite_and, Bool.false_eq_true, if_false]

/-- The check looks at the last record once there was one. -/
theorem watchdogDecision_received (hreceived : state.receivedProgress = true) :
    watchdogDecision config answers state =
      if (state.exited = false ∧ state.outcome = .pending) ∧
          timeoutElapsed state.lastProgressAt answers.timeoutClock
            config.defaults.progressTimeoutSec = true
      then .progressTimeout else .pending := by
  unfold watchdogDecision timeoutOutcome
  simp only [hreceived, ite_and, if_true]

/-- The startup timeout: no record yet, and the policy's time behind the start. -/
theorem watchdogDecision_startup_iff {events : List SupervisorEvent}
    (h : TimedEvents config.defaults state events) :
    watchdogDecision config answers state = .startupTimeout ↔
      state.exited = false ∧ state.outcome = .pending ∧ NoRecord events ∧
        ∃ now, answers.timeoutClock = some now ∧
          state.startedAt.nanoseconds + secondsNs config.defaults.startupTimeoutSec ≤
            now.nanoseconds := by
  cases hreceived : state.receivedProgress with
  | true =>
    have hrecord : ¬ NoRecord events := (h.last hreceived).not_noRecord
    rw [watchdogDecision_received hreceived]
    constructor
    · intro hstartup
      split at hstartup <;> cases hstartup
    · rintro ⟨-, -, hnone, -⟩
      exact absurd hnone hrecord
  | false =>
    rw [watchdogDecision_silent hreceived, ← timeoutElapsed_iff]
    constructor
    · intro hstartup
      split at hstartup
      · rename_i hguard
        exact ⟨hguard.1.1, hguard.1.2, h.silent hreceived, hguard.2⟩
      · cases hstartup
    · rintro ⟨hexited, hpending, -, helapsed⟩
      rw [if_pos ⟨⟨hexited, hpending⟩, helapsed⟩]

/-- The progress timeout: the policy's time behind the last record. -/
theorem watchdogDecision_progress_iff {events : List SupervisorEvent}
    (h : TimedEvents config.defaults state events) :
    watchdogDecision config answers state = .progressTimeout ↔
      state.exited = false ∧ state.outcome = .pending ∧
        ∃ last now, LastRecordAt events last ∧ answers.timeoutClock = some now ∧
          last.nanoseconds + secondsNs config.defaults.progressTimeoutSec ≤ now.nanoseconds := by
  cases hreceived : state.receivedProgress with
  | true =>
    have hlast : LastRecordAt events state.lastProgressAt := h.last hreceived
    rw [watchdogDecision_received hreceived]
    constructor
    · intro hprogress
      split at hprogress
      · rename_i hguard
        obtain ⟨now, hnow, hlate⟩ := timeoutElapsed_iff.mp hguard.2
        exact ⟨hguard.1.1, hguard.1.2, state.lastProgressAt, now, hlast, hnow, hlate⟩
      · cases hprogress
    · rintro ⟨hexited, hpending, last, now, hlast', hnow, hlate⟩
      rw [hlast'.unique hlast] at hlate
      rw [if_pos ⟨⟨hexited, hpending⟩, timeoutElapsed_iff.mpr ⟨now, hnow, hlate⟩⟩]
  | false =>
    rw [watchdogDecision_silent hreceived]
    constructor
    · intro hprogress
      split at hprogress <;> cases hprogress
    · rintro ⟨-, -, last, now, hlast, -⟩
      exact absurd (h.silent hreceived) hlast.not_noRecord

/-- What the code compares at a check is what the times of the log say. -/
theorem checkExact {events : List SupervisorEvent} (hstarted : state.startedAt = startedAt)
    (h : TimedEvents config.defaults state events) :
    CheckExact config startedAt events answers state where
  startup := hstarted ▸ watchdogDecision_startup_iff h
  progress := watchdogDecision_progress_iff h
  stops := by
    intro hsome
    rcases @timeoutBlock_eq config answers state with
      ⟨-, heq⟩ | ⟨hnone, -⟩
    · exact heq
    · exact absurd hnone hsome
  passes := by
    intro hnone
    rcases @timeoutBlock_eq config answers state with
      ⟨hsome, -⟩ | ⟨-, heq⟩
    · exact absurd hnone hsome
    · exact heq

/-! ## The loop -/

/-- Any outcome. -/
def AnyOutcome : WorkerAttemptOutcome → Prop := fun _ => True

/-- An iteration keeps the timers right. -/
theorem attemptIteration_timed (h : Timed config.defaults base startedAt AnyOutcome state) :
    BlockTimed config.defaults base startedAt AnyOutcome
      (attemptIteration strtod config channel options answers state) := by
  rw [attemptIteration_eq]
  refine (untilCheck_timed trivial trivial h).bind fun check hcheck => ?_
  exact timeoutBlock_timed trivial (fun _ => trivial) hcheck

/-- The invariant over all turns; the induction is on their answers. -/
theorem attemptLoop_timed (h : Timed config.defaults base startedAt AnyOutcome state)
    (iterations : List IterationAnswers) :
    (attemptLoop strtod config channel options iterations state).Meets (fun _ => False)
      (TimedLeft config.defaults base AnyOutcome)
      fun state => TimedLog config.defaults base state.shared.log := by
  refine Flow.loop_meets (Timed config.defaults base startedAt AnyOutcome) ?_ ?_ ?_ iterations h
  · intro answers state hstate _
    exact attemptIteration_timed hstate
  · intro state result hstate hdone
    rw [attemptDone_eq hdone]
    exact hstate.left
  · exact fun state hstate _ => hstate.timedLog

/-- Wherever the timeout check is reached, the watchdog is exact. -/
theorem timeoutChecks_exact (h : Timed config.defaults base startedAt AnyOutcome state)
    (iterations : List IterationAnswers) :
    ∀ turn ∈ timeoutChecks strtod config channel options iterations state,
      ∃ events, turn.2.shared.log = base ++ events ∧
        CheckExact config startedAt events turn.1 turn.2 := by
  intro turn hturn
  obtain ⟨⟨answers, before⟩, hmem, hcheck⟩ := List.mem_filterMap.mp hturn
  have hbefore : Timed config.defaults base startedAt AnyOutcome before := by
    refine Flow.turns_invariant (Timed config.defaults base startedAt AnyOutcome) ?_ iterations h
      _ hmem
    intro answers state hstate
    exact (attemptIteration_timed hstate).mono (fun _ hnext => hnext) (fun _ _ => trivial)
      fun _ _ => trivial
  have huntil : BlockTimed config.defaults base startedAt AnyOutcome
      (untilCheck strtod config channel options answers before) :=
    untilCheck_timed trivial trivial hbefore
  cases hflow : untilCheck strtod config channel options answers before with
  | next check =>
    rw [hflow] at hcheck huntil
    cases hcheck
    obtain ⟨events, hevents, htimed⟩ := huntil.events
    exact ⟨events, hevents, checkExact huntil.started htimed⟩
  | leave left =>
    rw [hflow] at hcheck
    cases hcheck
  | blocked waiting =>
    rw [hflow] at hcheck
    cases hcheck

/-- The outcome of a timeout. -/
def TimedOut (outcome : WorkerAttemptOutcome) : Prop :=
  outcome = .startupTimeout ∨ outcome = .progressTimeout

/-- An outcome that an iteration can end with: a timeout was the outcome before, or
the check of the iteration decided it. -/
def TimeoutDecided (strtod : Strtod) (config : GwConfig) (channel : GwChannelConfig)
    (options : GwSupervisorOptions) (answers : IterationAnswers) (state : AttemptState)
    (outcome : WorkerAttemptOutcome) : Prop :=
  TimedOut outcome → outcome = state.outcome ∨
    ∃ check, untilCheck strtod config channel options answers state = .next check ∧
      watchdogDecision config answers check = outcome

/-- A turn that leaves at its check has decided by the times of the log. -/
theorem attemptIteration_decided (h : Timed config.defaults base startedAt AnyOutcome state) :
    BlockTimed config.defaults base startedAt
      (TimeoutDecided strtod config channel options answers state)
      (attemptIteration strtod config channel options answers state) := by
  have hstop : TimeoutDecided strtod config channel options answers state .stopRequested := by
    rintro (h | h) <;> cases h
  have herror : TimeoutDecided strtod config channel options answers state .internalError := by
    rintro (h | h) <;> cases h
  have hkept : Timed config.defaults base startedAt
      (TimeoutDecided strtod config channel options answers state) state :=
    ⟨h.started, fun _ => Or.inl rfl, h.events⟩
  have huntil : BlockTimed config.defaults base startedAt
      (TimeoutDecided strtod config channel options answers state)
      (untilCheck strtod config channel options answers state) :=
    untilCheck_timed hstop herror hkept
  rw [attemptIteration_eq]
  cases hflow : untilCheck strtod config channel options answers state with
  | next check =>
    rw [hflow] at huntil
    exact timeoutBlock_timed herror (fun _ _ => Or.inr ⟨check, hflow, rfl⟩) huntil
  | leave left =>
    rw [hflow] at huntil
    exact huntil
  | blocked waiting =>
    rw [hflow] at huntil
    exact huntil

/-- The checks of a run are that of its first turn and those of the others. -/
theorem timeoutChecks_here {check : AttemptState} {rest : List IterationAnswers}
    (hrunning : attemptDone state = none)
    (hcheck : untilCheck strtod config channel options answers state = .next check) :
    (answers, check) ∈ timeoutChecks strtod config channel options (answers :: rest) state := by
  unfold timeoutChecks
  rw [Flow.turns, hrunning]
  refine List.mem_filterMap.mpr ⟨(answers, state), List.mem_cons_self, ?_⟩
  rw [hcheck]

theorem timeoutChecks_later {later : AttemptState} {rest : List IterationAnswers}
    (hrunning : attemptDone state = none)
    (hstep : attemptIteration strtod config channel options answers state = .next later) :
    ∀ turn ∈ timeoutChecks strtod config channel options rest later,
      turn ∈ timeoutChecks strtod config channel options (answers :: rest) state := by
  intro turn hturn
  obtain ⟨before, hmem, hcheck⟩ := List.mem_filterMap.mp hturn
  unfold timeoutChecks
  rw [Flow.turns, hrunning, hstep]
  exact List.mem_filterMap.mpr ⟨before, List.mem_cons_of_mem _ hmem, hcheck⟩

/-- A timeout that the loop leaves with was there before it, or one of its checks
decided it. -/
theorem attemptLoop_decided (h : Timed config.defaults base startedAt AnyOutcome state)
    (iterations : List IterationAnswers) :
    (attemptLoop strtod config channel options iterations state).Meets (fun _ => False)
      (fun left => TimedOut left.outcome → left.outcome = state.outcome ∨
        ∃ turn ∈ timeoutChecks strtod config channel options iterations state,
          watchdogDecision config turn.1 turn.2 = left.outcome)
      fun _ => True := by
  induction iterations generalizing state with
  | nil =>
    unfold attemptLoop
    rw [Flow.loop]
    cases hdone : attemptDone state with
    | some left => exact fun _ => Or.inl (by rw [attemptDone_eq hdone])
    | none => trivial
  | cons answers rest ih =>
    unfold attemptLoop at ih ⊢
    rw [Flow.loop]
    cases hrunning : attemptDone state with
    | some left => exact fun _ => Or.inl (by rw [attemptDone_eq hrunning])
    | none =>
      have hdecided : BlockTimed config.defaults base startedAt
          (TimeoutDecided strtod config channel options answers state)
          (attemptIteration strtod config channel options answers state) :=
        attemptIteration_decided h
      -- a timeout that the iteration decided is one of its own check
      have hturn : ∀ outcome, TimeoutDecided strtod config channel options answers state outcome →
          TimedOut outcome → outcome = state.outcome ∨
            ∃ turn ∈ timeoutChecks strtod config channel options (answers :: rest) state,
              watchdogDecision config turn.1 turn.2 = outcome := by
        intro outcome hout htimeout
        rcases hout htimeout with hbefore | ⟨check, hcheck, hdecision⟩
        · exact Or.inl hbefore
        · exact Or.inr ⟨_, timeoutChecks_here hrunning hcheck, hdecision⟩
      cases hstep : attemptIteration strtod config channel options answers state with
      | next later =>
        rw [hstep] at hdecided
        have hlater : Timed config.defaults base startedAt AnyOutcome later :=
          ⟨hdecided.started, trivial, hdecided.events⟩
        refine (ih hlater).mono (fun _ h => h) (fun left hleft htimeout => ?_) fun _ h => h
        rcases hleft htimeout with hbefore | ⟨turn, hmem, hdecision⟩
        · rw [hbefore] at htimeout ⊢
          exact hturn _ hdecided.outcome htimeout
        · exact Or.inr ⟨turn, timeoutChecks_later hrunning hstep turn hmem, hdecision⟩
      | leave left =>
        rw [hstep] at hdecided
        exact hturn _ hdecided.outcome
      | blocked waiting => trivial

end Check

/-! ## The attempt -/

/-- The state in which the loop of `run_worker_attempt` starts, when it does: the
worker runs and the clock was read. -/
def attemptLoopStart (config : GwConfig) (channel : GwChannelConfig)
    (options : GwSupervisorOptions) (answers : AttemptAnswers) (state : SupervisorState) :
    Option AttemptState :=
  match gwPipelineBuild answers.allocator channel config.mediamtx options.ffmpegBinary with
  | .error _ => none
  | .ok arguments =>
      let reply := gwProcessStart gwProcessInit arguments answers.start
      match reply.result with
      | .error _ => none
      | .ok _ =>
          answers.startedClock.map fun now =>
            attemptStart options reply.process now
              ((state.note (reply.calls.map .system)).note [.clock (some now)])

section Attempt

variable {ρ : Type} {strtod : Strtod} {config : GwConfig} {channel : GwChannelConfig}
  {options : GwSupervisorOptions} {answers : AttemptAnswers} {base : List SupervisorEvent}

/-- An attempt without a loop returns an error of its own. -/
def NeverLooped (policy : GwRetryPolicy) (base : List SupervisorEvent)
    (run : AttemptRun ρ) : Prop :=
  run.Meets (fun returned => ¬ TimedOut returned.1.outcome ∧ TimedLog policy base returned.2.log)
    (fun _ => False) fun state => TimedLog policy base state.log

theorem TimedLog.refl (policy : GwRetryPolicy) (base : List SupervisorEvent) :
    TimedLog policy base base := ⟨[], (List.append_nil _).symm, Log.each_nil _⟩

theorem untimed_cons {event : SupervisorEvent} {more : List SupervisorEvent}
    (hevent : event.untimed = true) (hmore : ∀ other ∈ more, other.untimed = true) :
    ∀ other ∈ event :: more, other.untimed = true := List.forall_mem_cons.mpr ⟨hevent, hmore⟩

/-- The attempt is its loop, or it never loops. -/
theorem runWorkerAttempt_loop (state : SupervisorState) :
    (∃ start, attemptLoopStart config channel options answers state = some start ∧
      (runWorkerAttempt strtod config channel options answers state : AttemptRun ρ) =
        afterLoop config options answers.cleanupStop
          (attemptLoop strtod config channel options answers.iterations start)) ∨
    (attemptLoopStart config channel options answers state = none ∧
      NeverLooped config.defaults state.log
        (runWorkerAttempt strtod config channel options answers state : AttemptRun ρ)) := by
  have hbase := TimedLog.refl config.defaults state.log
  unfold attemptLoopStart runWorkerAttempt
  cases gwPipelineBuild answers.allocator channel config.mediamtx options.ffmpegBinary with
  | error error => exact Or.inr ⟨rfl, by simp [failedAttempt, TimedOut], hbase⟩
  | ok arguments =>
    have hcalls := hbase.untimed
      (untimed_system (gwProcessStart gwProcessInit arguments answers.start).calls)
    dsimp only
    cases (gwProcessStart gwProcessInit arguments answers.start).result with
    | error error => exact Or.inr ⟨rfl, by simp [failedAttempt, TimedOut], hcalls⟩
    | ok value =>
      dsimp only
      unfold superviseWorker
      cases answers.startedClock with
      | some now => exact Or.inl ⟨_, rfl, rfl⟩
      | none =>
        refine Or.inr ⟨rfl, ?_⟩
        dsimp only
        cases gwProcessStop _ (stopTimeoutMs config) answers.startedStop with
        | none => exact hcalls.untimed (untimed_singleton rfl)
        | some reply =>
          refine ⟨by simp [failedAttempt, TimedOut], ?_⟩
          exact (hcalls.untimed (untimed_cons rfl (untimed_system _))).untimed (untimed_system _)

/-- The loop starts with its timers right: the worker has completed no record. -/
theorem attemptStart_timed (process : GwProcess) (now : Timespec) {shared : SupervisorState}
    (more : List SupervisorEvent) (hlog : shared.log = base ++ more)
    (hmore : ∀ event ∈ more, event.untimed = true) :
    Timed config.defaults base now AnyOutcome (attemptStart options process now shared) := by
  obtain ⟨shown, hshown, huntimed⟩ := @publish_log options
    { shared with
        snapshot := gwChannelSnapshotSetProcess shared.snapshot .worker process.pid
          (ascii "worker_started") }
  have hall : ∀ event ∈ more ++ shown, event.untimed = true :=
    List.forall_mem_append.mpr ⟨hmore, huntimed⟩
  refine ⟨rfl, trivial, more ++ shown, ?_, ?_⟩
  · rw [← List.append_assoc, ← hlog]
    exact hshown
  · refine ⟨fun _ => noRecord_of_untimed hall, (fun h => nomatch h), (fun h => nomatch h),
      fun _ => noStable_of_untimed hall, ?_⟩
    rw [← List.nil_append (more ++ shown)]
    exact each_untimed (Log.each_nil _) hall

theorem attemptLoopStart_timed {state : SupervisorState} {start : AttemptState}
    (h : attemptLoopStart config channel options answers state = some start) :
    answers.startedClock = some start.startedAt ∧ start.outcome = .pending ∧
      Timed config.defaults state.log start.startedAt AnyOutcome start := by
  unfold attemptLoopStart at h
  cases hbuild : gwPipelineBuild answers.allocator channel config.mediamtx
      options.ffmpegBinary with
  | error error =>
    rw [hbuild] at h
    cases h
  | ok arguments =>
    rw [hbuild] at h
    dsimp only at h
    split at h
    · cases h
    · obtain ⟨now, hclock, hstart⟩ := Option.map_eq_some_iff.mp h
      cases hstart
      have hcalls := untimed_system (gwProcessStart gwProcessInit arguments answers.start).calls
      refine ⟨hclock, rfl, attemptStart_timed _ now _ (List.append_assoc _ _ _) ?_⟩
      exact List.forall_mem_append.mpr ⟨hcalls, untimed_singleton rfl⟩

/-- The end of an attempt keeps a timeout as it is, and adds only calls to the log. -/
theorem closeAttempt_timed {state : AttemptState} {policy : GwRetryPolicy}
    (h : TimedLog policy base state.shared.log) :
    (closeAttempt options state : AttemptRun ρ).Meets
      (fun returned => (TimedOut returned.1.outcome → returned.1.outcome = state.outcome) ∧
        TimedLog policy base returned.2.log)
      (fun _ => False) fun state => TimedLog policy base state.log := by
  have hclosed := h.untimed (untimed_system (gwProcessClose state.process).calls)
  unfold closeAttempt
  dsimp only
  cases (gwProcessClose state.process).result with
  | error error => exact ⟨(by rintro (h | h) <;> cases h), hclosed⟩
  | ok value =>
    refine ⟨?_, hclosed⟩
    by_cases hpending : state.process.reaped = true ∧ state.outcome = .pending
    · rw [if_pos hpending]
      simp only [hpending.1, if_true]
      intro htimeout
      split at htimeout <;> rcases htimeout with h | h <;> cases h
    · rw [if_neg hpending]
      exact fun _ => rfl

theorem finishAttempt_timed {state : AttemptState} {policy : GwRetryPolicy}
    {cleanup : StopAnswers} (h : TimedLog policy base state.shared.log) :
    (finishAttempt config options cleanup state : AttemptRun ρ).Meets
      (fun returned => (TimedOut returned.1.outcome → returned.1.outcome = state.outcome) ∧
        TimedLog policy base returned.2.log)
      (fun _ => False) fun state => TimedLog policy base state.log := by
  unfold finishAttempt
  split
  · cases gwProcessStop state.process (stopTimeoutMs config) cleanup with
    | none => exact h
    | some reply => exact closeAttempt_timed (h.untimed (untimed_system reply.calls))
  · exact closeAttempt_timed h

/-- The watchdog is exact.  At every timeout check of every run it decides a startup
timeout exactly when no record was completed since the worker started and the startup
timeout passed, and a progress timeout exactly when the progress timeout passed since
the last completed record, and then it stops the worker; no other step returns a
timeout.  STABLE is issued at most once, behind the first record by at least the
stable run. -/
theorem watchdog_exact (strtod : Strtod) (config : GwConfig) (channel : GwChannelConfig)
    (options : GwSupervisorOptions) (answers : AttemptAnswers) (state : SupervisorState) :
    (∀ start, attemptLoopStart config channel options answers state = some start →
      (runWorkerAttempt strtod config channel options answers state : AttemptRun ρ) =
        afterLoop config options answers.cleanupStop
          (attemptLoop strtod config channel options answers.iterations start) ∧
      answers.startedClock = some start.startedAt ∧
      ∀ turn ∈ timeoutChecks strtod config channel options answers.iterations start,
        ∃ events, turn.2.shared.log = state.log ++ events ∧
          CheckExact config start.startedAt events turn.1 turn.2) ∧
    (runWorkerAttempt strtod config channel options answers state : AttemptRun ρ).Meets
      (fun returned =>
        (TimedOut returned.1.outcome →
          ∃ start, attemptLoopStart config channel options answers state = some start ∧
            ∃ turn ∈ timeoutChecks strtod config channel options answers.iterations start,
              watchdogDecision config turn.1 turn.2 = returned.1.outcome) ∧
        TimedLog config.defaults state.log returned.2.log)
      (fun _ => False)
      fun waiting => TimedLog config.defaults state.log waiting.log := by
  rcases @runWorkerAttempt_loop ρ strtod config channel options answers state with
    ⟨start, hstart, hrun⟩ | ⟨hnone, hrun⟩
  · obtain ⟨hclock, hpending, htimed⟩ := attemptLoopStart_timed hstart
    refine ⟨fun other hother => ?_, ?_⟩
    · rw [hstart] at hother
      cases hother
      exact ⟨hrun, hclock, timeoutChecks_exact htimed answers.iterations⟩
    · have hloop :=
        (@attemptLoop_timed strtod config channel options _ _ _ htimed answers.iterations).and
          (attemptLoop_decided htimed answers.iterations)
      rw [hrun]
      cases hflow : attemptLoop strtod config channel options answers.iterations start with
      | next last =>
        rw [hflow] at hloop
        exact hloop.1.elim
      | blocked waiting =>
        rw [hflow] at hloop
        exact hloop.1
      | leave left =>
        rw [hflow] at hloop
        obtain ⟨hleft, hdecided⟩ := hloop
        refine (finishAttempt_timed hleft.log).mono (fun returned hreturned => ?_)
          (fun _ h => h) fun _ h => h
        obtain ⟨hkept, hlog⟩ := hreturned
        refine ⟨fun htimeout => ⟨start, hstart, ?_⟩, hlog⟩
        have heq := hkept htimeout
        rw [heq] at htimeout ⊢
        rcases hdecided htimeout with hbefore | hturn
        · rw [hbefore, hpending] at htimeout
          rcases htimeout with h | h <;> cases h
        · exact hturn
  · refine ⟨fun start hstart => ?_, ?_⟩
    · rw [hnone] at hstart
      cases hstart
    · exact hrun.mono (fun returned h => ⟨fun htimeout => absurd htimeout h.1, h.2⟩)
        (fun _ h => h) fun _ h => h

end Attempt

end LearnApue.Gateway
