import LearnApue.Gateway.ProcessHandle
import LearnApue.Gateway.StopRequest

set_option autoImplicit false
set_option maxRecDepth 2048

/-!
# Gateway: the worker pids that an attempt publishes

A snapshot of an attempt shows the pid of its worker.  The worker is reaped by the
exit poll or by a stop, and the loop then drains its pipes; a progress record that
is completed by such a late read is published with the pid of the reaped worker.
In every other turn the published pid is the pid of a child that was not reaped
(`runWorkerAttempt_live`).

That is an equivalence, so every lemma on the way has to say when a piece of the loop
goes wrong and not only that it may.  A piece comes with a proposition `bad`, and its
verdict is that the log it leaves is right exactly when the log before was and `bad` does
not hold (`Verdict`).  The blocks of a turn are pieces that never go wrong, but for the
one that reads stdout; two rules put a piece in front of such a block or behind it
(`PieceOk.before`, `PieceOk.after`).

What makes the verdict exact is that the snapshot always shows the worker of the handle,
and that the handle is reaped exactly when the log has the reaping (`WorkerShown`).
-/

namespace LearnApue.Gateway

open LearnApue.Foundation

/-! ## What is published, and when -/

/-- A published worker pid was spawned and not reaped in the events before.  A snapshot of
any other kind shows no worker. -/
def LiveWhenPublished (past : List SupervisorEvent) : SupervisorEvent → Prop
  | .published snapshot =>
      snapshot.processKind = .worker →
        .system (.spawn snapshot.processPid) ∈ past ∧
          ∀ status, .system (.reap snapshot.processPid status) ∉ past
  | _ => True

/-- The events after the first ones of a log. -/
def EventsLive (past log : List SupervisorEvent) : Prop :=
  ∃ events, log = past ++ events ∧ Log.Each LiveWhenPublished events

section Condition

variable (strtod : Strtod) (config : GwConfig) (options : GwSupervisorOptions)
  (answers : IterationAnswers) (state : AttemptState)

/-- The worker is reaped when a turn comes to its reads: it had exited before, or
the stop check of the turn stops it. -/
def ReapedBeforeReads : Prop :=
  state.exited = true ∨
    (stopSignalValue options answers.stop ≠ 0 ∧ state.outcome = .pending ∧
      ∃ reply, gwProcessStop state.process (stopTimeoutMs config) answers.stopProcess = some reply ∧
        reply.result = .ok ())

/-- The read of the worker's stdout completes a record that is published: the bytes make
the parser's record complete, the clock is read, somebody observes, and the channel is
running or may go there. -/
def ReadPublishes : Prop :=
  (readyDescriptors state.process answers.poll).1 = true ∧
    ∃ data, answers.stdoutRead = .ok data ∧
      (gwProgressParserConsume strtod state.parser data state.latestProgress).2 = .ok () ∧
      (gwProgressParserConsume strtod state.parser data state.latestProgress).1.completed = true ∧
      answers.progressClock ≠ none ∧ options.observer = true ∧
      (state.receivedProgress = true ∨
        (gwChannelTransition state.shared.runtime .progress config.defaults).2 = .ok ())

/-- A turn that publishes a record of a reaped worker. -/
def RecordAfterReap : Prop :=
  ReapedBeforeReads config options answers state ∧
    ReadPublishes strtod config options answers state

end Condition

/-! ## The start of a worker -/

/-- A start that succeeds spawned the worker of the handle, and reaped nobody. -/
def Spawned (reply : ProcessReply Unit) : Prop :=
  reply.result = .ok () →
    .spawn reply.process.pid ∈ reply.calls ∧ reply.process.reaped = false ∧
      ∀ pid status, .reap pid status ∉ reply.calls

/-- The spawn is the last call of a start that succeeds, but for the ends of the pipes. -/
theorem startSpawn_spawned {process : GwProcess} {program : Bytes} {answers : StartAnswers}
    {stdoutPipe stderrPipe : Int × Int} {calls : List SystemCall}
    (hcalls : ∀ pid status, .reap pid status ∉ calls) :
    Spawned (startSpawn process program answers stdoutPipe stderrPipe calls) := by
  have hclose : ∀ pid status descriptor, SystemCall.reap pid status ∉ closeFd descriptor := by
    intro pid status descriptor
    unfold closeFd
    split
    · simp
    · simp
  unfold startSpawn
  cases answers.attributesInit with
  | some errno => exact fun h => nomatch h
  | none =>
    cases answers.setAttributes with
    | some errno => exact fun h => nomatch h
    | none =>
      cases answers.spawn with
      | error errno => exact fun h => nomatch h
      | ok child =>
        refine fun _ => ⟨by simp, rfl, ?_⟩
        intro pid status
        simp [hcalls pid status, hclose pid status]

theorem startStderr_spawned {process : GwProcess} {program : Bytes} {answers : StartAnswers}
    {stdoutPipe : Int × Int} {calls : List SystemCall}
    (hcalls : ∀ pid status, .reap pid status ∉ calls) :
    Spawned (startStderr process program answers stdoutPipe calls) := by
  unfold startStderr
  cases answers.stderrPipe with
  | error errno => exact fun h => nomatch h
  | ok stderrPipe =>
    dsimp only
    cases configurePipe answers.stderrCloexec answers.stderrNonblock with
    | error error => exact fun h => nomatch h
    | ok configured =>
      cases answers.actionsInit with
      | some errno => exact fun h => nomatch h
      | none =>
        dsimp only
        cases answers.addFileActions with
        | some errno => exact fun h => nomatch h
        | none =>
          apply startSpawn_spawned
          intro pid status
          simp [hcalls pid status]

theorem gwProcessStart_spawned (process : GwProcess) (arguments : List Bytes)
    (answers : StartAnswers) : Spawned (gwProcessStart process arguments answers) := by
  unfold gwProcessStart
  cases arguments with
  | nil => exact fun h => nomatch h
  | cons program rest =>
    dsimp only
    split
    · exact fun h => nomatch h
    · cases answers.stdoutPipe with
      | error errno => exact fun h => nomatch h
      | ok stdoutPipe =>
        dsimp only
        cases configurePipe answers.stdoutCloexec answers.stdoutNonblock with
        | error error => exact fun h => nomatch h
        | ok configured =>
          apply startStderr_spawned
          intro pid status
          simp

/-! ## How the log grows -/

/-- The log grows by events that publish nothing. -/
def Quiet (before after : List SupervisorEvent) : Prop :=
  ∃ more, after = before ++ more ∧ ∀ snapshot, .published snapshot ∉ more

theorem Quiet.refl (log : List SupervisorEvent) : Quiet log log :=
  ⟨[], by simp, by simp⟩

theorem Quiet.trans {first second third : List SupervisorEvent} (h : Quiet first second)
    (hnext : Quiet second third) : Quiet first third := by
  obtain ⟨more, rfl, hmore⟩ := h
  obtain ⟨rest, rfl, hrest⟩ := hnext
  refine ⟨more ++ rest, by simp, ?_⟩
  intro snapshot hmem
  rcases List.mem_append.mp hmem with hmem | hmem
  · exact hmore snapshot hmem
  · exact hrest snapshot hmem

/-- What an attempt notes is quiet unless it publishes. -/
theorem quiet_note (state : AttemptState) {events : List SupervisorEvent}
    (h : ∀ snapshot, .published snapshot ∉ events) :
    Quiet state.shared.log (state.note events).shared.log :=
  ⟨events, rfl, h⟩

/-- System calls are quiet. -/
theorem quiet_calls (log : List SupervisorEvent) (calls : List SystemCall) :
    Quiet log (log ++ calls.map .system) :=
  ⟨_, rfl, by simp⟩

theorem each_of_quiet {past more : List SupervisorEvent}
    (h : Log.Each LiveWhenPublished past) (hmore : ∀ snapshot, .published snapshot ∉ more) :
    Log.Each LiveWhenPublished (past ++ more) := by
  refine Log.each_append.mpr ⟨h, ?_⟩
  intro front event rest heq
  cases event with
  | published snapshot => exact absurd (by rw [heq]; simp) (hmore snapshot)
  | _ => trivial

/-- Events that publish nothing change nothing. -/
theorem EventsLive.quiet_iff {past before after : List SupervisorEvent} (hpast : past <+: before)
    (h : Quiet before after) : EventsLive past after ↔ EventsLive past before := by
  obtain ⟨events, rfl⟩ := hpast
  obtain ⟨more, rfl, hmore⟩ := h
  constructor
  · rintro ⟨events', heq, heach⟩
    rw [List.append_assoc] at heq
    have hevents := List.append_cancel_left heq
    rw [← hevents] at heach
    exact ⟨events, rfl, (Log.each_append.mp heach).1⟩
  · rintro ⟨events', heq, heach⟩
    have hevents := List.append_cancel_left heq
    rw [← hevents] at heach
    exact ⟨events ++ more, by rw [List.append_assoc], each_of_quiet heach hmore⟩

/-! ## What holds between two blocks -/

/-- The snapshot shows the worker of the handle, whose spawn and reaping stand in
the log.  `past` is the log with which the attempt began: other attempts may have had a
worker of the same pid, and do not count. -/
structure WorkerShown (past : List SupervisorEvent) (state : AttemptState) : Prop where
  grown : past <+: state.shared.log
  spawned : .system (.spawn state.process.pid) ∈ state.shared.log.drop past.length
  /-- The attempt reaps nobody but the worker of the handle. -/
  unreaped : state.process.reaped = false →
    ∀ pid status, .system (.reap pid status) ∉ state.shared.log.drop past.length
  reaped : state.process.reaped = true →
    ∃ status, .system (.reap state.process.pid status) ∈ state.shared.log.drop past.length
  kind : state.shared.snapshot.processKind = .worker
  shown : state.shared.snapshot.processPid = state.process.pid

section Shown

variable {past : List SupervisorEvent} {state : AttemptState}

/-- What was noted in the attempt stays noted. -/
theorem drop_append_of_prefix {past log : List SupervisorEvent} (h : past <+: log)
    (more : List SupervisorEvent) :
    (log ++ more).drop past.length = log.drop past.length ++ more :=
  List.drop_append_of_le_length h.length_le

/-- The log, the snapshot and the handle decide; the other locals do not matter. -/
theorem WorkerShown.of_same (h : WorkerShown past state) {next : AttemptState}
    (hlog : next.shared.log = state.shared.log) (hprocess : next.process = state.process)
    (hkind : next.shared.snapshot.processKind = state.shared.snapshot.processKind)
    (hpid : next.shared.snapshot.processPid = state.shared.snapshot.processPid) :
    WorkerShown past next := by
  obtain ⟨hgrown, hspawned, hunreaped, hreaped, hworker, hshown⟩ := h
  constructor
  · rw [hlog]
    exact hgrown
  · rw [hlog, hprocess]
    exact hspawned
  · rw [hlog, hprocess]
    exact hunreaped
  · rw [hlog, hprocess]
    exact hreaped
  · rw [hkind]
    exact hworker
  · rw [hpid, hprocess]
    exact hshown

/-- Events that are no system calls. -/
theorem WorkerShown.note (h : WorkerShown past state) {events : List SupervisorEvent}
    (hevents : ∀ call, .system call ∉ events) : WorkerShown past (state.note events) := by
  have hdrop := drop_append_of_prefix h.grown events
  refine ⟨h.grown.trans (List.prefix_append _ _), ?_, ?_, ?_, h.kind, h.shown⟩
  · show _ ∈ (state.shared.log ++ events).drop past.length
    rw [hdrop]
    exact List.mem_append_left _ h.spawned
  · intro hfalse pid status hmem
    rw [show (state.note events).shared.log = state.shared.log ++ events from rfl, hdrop] at hmem
    rcases List.mem_append.mp hmem with hmem | hmem
    · exact h.unreaped hfalse pid status hmem
    · exact hevents _ hmem
  · intro htrue
    obtain ⟨status, hstatus⟩ := h.reaped htrue
    refine ⟨status, ?_⟩
    show _ ∈ (state.shared.log ++ events).drop past.length
    rw [hdrop]
    exact List.mem_append_left _ hstatus

/-- Calls on the handle. -/
theorem WorkerShown.reply (h : WorkerShown past state) {next : GwProcess}
    {calls : List SystemCall} (hcalls : ReapsSeen state.process next calls) :
    WorkerShown past ({ state with process := next }.note (calls.map .system)) := by
  have hdrop := drop_append_of_prefix h.grown (calls.map .system)
  have hlog : ({ state with process := next }.note (calls.map .system)).shared.log =
      state.shared.log ++ calls.map .system := rfl
  refine ⟨h.grown.trans (List.prefix_append _ _), ?_, ?_, ?_, h.kind, h.shown.trans hcalls.pid.symm⟩
  · rw [hlog, hdrop]
    apply List.mem_append_left
    show SupervisorEvent.system (.spawn next.pid) ∈ _
    rw [hcalls.pid]
    exact h.spawned
  · intro hfalse pid status hmem
    obtain ⟨hbefore, hnone⟩ := hcalls.unreaped hfalse
    rw [hlog, hdrop] at hmem
    rcases List.mem_append.mp hmem with hmem | hmem
    · exact h.unreaped hbefore pid status hmem
    · obtain ⟨call, hcall, heq⟩ := List.mem_map.mp hmem
      cases heq
      exact hnone pid status hcall
  · intro htrue
    rw [hlog, hdrop]
    show ∃ status, SupervisorEvent.system (.reap next.pid status) ∈ _
    rw [hcalls.pid]
    rcases hcalls.reaped htrue with hbefore | ⟨status, hstatus⟩
    · obtain ⟨status, hstatus⟩ := h.reaped hbefore
      exact ⟨status, List.mem_append_left _ hstatus⟩
    · exact ⟨status, List.mem_append_right _ (List.mem_map_of_mem hstatus)⟩

/-- Publishing the snapshot of the attempt is right exactly while the worker is not
reaped. -/
theorem WorkerShown.publish_iff (h : WorkerShown past state) {snapshot : GwChannelSnapshot}
    (hkind : snapshot.processKind = .worker) (hpid : snapshot.processPid = state.process.pid) :
    EventsLive past (state.shared.log ++ [.published snapshot]) ↔
      EventsLive past state.shared.log ∧ state.process.reaped = false := by
  -- by the log of the attempt the worker is live, or it was reaped, as the handle has it
  obtain ⟨events, hlog⟩ := h.grown
  have hevents : state.shared.log.drop past.length = events := by rw [← hlog, List.drop_left]
  have hlive : LiveWhenPublished events (.published snapshot) ↔ state.process.reaped = false := by
    constructor
    · intro hright
      cases hreaped : state.process.reaped with
      | false => rfl
      | true =>
        obtain ⟨status, hstatus⟩ := h.reaped hreaped
        rw [hevents] at hstatus
        exact absurd (hpid ▸ hstatus) ((hright hkind).2 status)
    · intro hreaped _
      have hspawned := h.spawned
      rw [hevents] at hspawned
      refine ⟨hpid ▸ hspawned, fun status hmem => ?_⟩
      have hnone := h.unreaped hreaped snapshot.processPid status
      rw [hevents] at hnone
      exact hnone hmem
  rw [← hlive, ← hlog]
  constructor
  · rintro ⟨events', heq, heach⟩
    rw [List.append_assoc] at heq
    rw [← List.append_cancel_left heq, Log.each_concat] at heach
    exact ⟨⟨events, rfl, heach.1⟩, heach.2⟩
  · rintro ⟨⟨events', heq, heach⟩, hright⟩
    rw [← List.append_cancel_left heq] at heach
    exact ⟨events ++ [.published snapshot], by rw [List.append_assoc],
      Log.each_concat.mpr ⟨heach, hright⟩⟩

end Shown

/-! ## Verdicts on pieces of a turn -/

/-- The log grows, and stays right exactly when nothing bad happens.  A log that was wrong
before stays wrong. -/
def Verdict (past : List SupervisorEvent) (bad : Prop) (before after : List SupervisorEvent) :
    Prop :=
  past <+: after ∧ (EventsLive past after ↔ EventsLive past before ∧ ¬ bad)

/-- Who publishes nothing never goes wrong. -/
theorem Verdict.of_quiet {past before after : List SupervisorEvent} {bad : Prop}
    (hpast : past <+: before) (h : Quiet before after) (hbad : ¬ bad) :
    Verdict past bad before after := by
  refine ⟨?_, ?_⟩
  · obtain ⟨more, rfl, -⟩ := h
    exact hpast.trans (List.prefix_append _ _)
  · rw [EventsLive.quiet_iff hpast h]
    exact ⟨fun hlive => ⟨hlive, hbad⟩, fun hlive => hlive.1⟩

/-- Of two pieces one behind the other, either can go wrong. -/
theorem Verdict.trans {past first second third : List SupervisorEvent} {bad bad' both : Prop}
    (h : Verdict past bad first second) (hnext : Verdict past bad' second third)
    (hboth : both ↔ bad ∨ bad') : Verdict past both first third := by
  refine ⟨hnext.1, ?_⟩
  rw [hnext.2, h.2, hboth, not_or, and_assoc]

/-- A piece of the loop body: it keeps what the snapshot shows when it goes on, and
has its verdict however it ends.  The flag `exited` of the loop follows the handle. -/
def PieceOk (past : List SupervisorEvent) (bad : Prop) (state : AttemptState)
    (flow : AttemptFlow) : Prop :=
  flow.Meets
    (fun next => WorkerShown past next ∧ next.exited = next.process.reaped ∧
      Verdict past bad state.shared.log next.shared.log)
    (fun last => Verdict past bad state.shared.log last.shared.log)
    (fun last => Verdict past bad state.shared.log last.shared.log)

theorem PieceOk.congr {past : List SupervisorEvent} {bad bad' : Prop} {state : AttemptState}
    {flow : AttemptFlow} (h : PieceOk past bad state flow) (hbad : bad ↔ bad') :
    PieceOk past bad' state flow :=
  propext hbad ▸ h

/-- A piece with a front of its own: either can go wrong. -/
theorem PieceOk.behind {past : List SupervisorEvent} {bad bad' both : Prop}
    {state middle : AttemptState} {flow : AttemptFlow} (h : PieceOk past bad' middle flow)
    (hfront : Verdict past bad state.shared.log middle.shared.log) (hboth : both ↔ bad ∨ bad') :
    PieceOk past both state flow :=
  h.mono (fun _ hnext => ⟨hnext.1, hnext.2.1, hfront.trans hnext.2.2 hboth⟩)
    (fun _ hlast => hfront.trans hlast hboth) fun _ hlast => hfront.trans hlast hboth

/-- A piece that never goes wrong, and what follows it.  When the piece does not go on, what
follows is not reached, and then it must not count as bad. -/
theorem PieceOk.before {past : List SupervisorEvent} {bad : Prop} {state : AttemptState}
    {flow : AttemptFlow} {rest : AttemptState → AttemptFlow} (hflow : PieceOk past False state flow)
    (hrest : ∀ next, flow = .next next → WorkerShown past next →
      next.exited = next.process.reaped → PieceOk past bad next (rest next))
    (hends : (∀ next, flow ≠ .next next) → ¬ bad) :
    PieceOk past bad state (flow.bind rest) := by
  cases flow with
  | next next =>
    obtain ⟨hshown, hexited, hverdict⟩ := hflow
    exact (hrest next rfl hshown hexited).behind hverdict (by rw [false_or])
  | leave last => exact PieceOk.congr hflow (iff_of_false id (hends (by simp)))
  | blocked last => exact PieceOk.congr hflow (iff_of_false id (hends (by simp)))

/-- A piece, and what follows it and never goes wrong. -/
theorem PieceOk.after {past : List SupervisorEvent} {bad : Prop} {state : AttemptState}
    {flow : AttemptFlow} {rest : AttemptState → AttemptFlow} (hflow : PieceOk past bad state flow)
    (hrest : ∀ next, WorkerShown past next → next.exited = next.process.reaped →
      PieceOk past False next (rest next)) :
    PieceOk past bad state (flow.bind rest) := by
  cases flow with
  | next next =>
    obtain ⟨hshown, hexited, hverdict⟩ := hflow
    exact (hrest next hshown hexited).behind hverdict (by rw [or_false])
  | leave last => exact hflow
  | blocked last => exact hflow

/-! ## The blocks -/

section Blocks

variable {strtod : Strtod} {config : GwConfig} {channel : GwChannelConfig}
  {options : GwSupervisorOptions} {answers : IterationAnswers} {past : List SupervisorEvent}
  {state : AttemptState}

/-- A block that leaves the state. -/
theorem pieceOk_next (h : WorkerShown past state) (hexited : state.exited = state.process.reaped) :
    PieceOk past False state (.next state) :=
  ⟨h, hexited, .of_quiet h.grown (.refl _) id⟩

/-- The stop check comes to the reads with a reaped worker exactly when it should,
and changes nothing that they read. -/
theorem stopBlock_reads :
    (stopBlock config options answers state).Meets
      (fun next => (next.exited = true ↔ ReapedBeforeReads config options answers state) ∧
        (ReadPublishes strtod config options answers next ↔
          ReadPublishes strtod config options answers state))
      (fun _ => ¬ ReapedBeforeReads config options answers state)
      (fun _ => ¬ ReapedBeforeReads config options answers state) := by
  unfold stopBlock
  split
  · rename_i hactive
    obtain ⟨hstop, hpending, hrunning⟩ := hactive
    have hbefore : ¬ state.exited = true := by simp [hrunning]
    cases hreply : gwProcessStop state.process (stopTimeoutMs config) answers.stopProcess with
    | none =>
      rintro (h | ⟨-, -, reply, h, -⟩)
      · exact hbefore h
      · rw [hreply] at h
        cases h
    | some reply =>
      dsimp only
      cases hresult : reply.result with
      | error error =>
        rintro (h | ⟨-, -, other, h, hok⟩)
        · exact hbefore h
        · rw [hreply, Option.some.injEq] at h
          rw [← h, hresult] at hok
          cases hok
      | ok value =>
        refine ⟨⟨fun _ => Or.inr ⟨hstop, hpending, reply, hreply, hresult⟩, fun _ => rfl⟩, ?_⟩
        have hfd : reply.process.stdoutFd = state.process.stdoutFd :=
          (gwProcessStop_effect hreply).stdoutFd
        unfold ReadPublishes
        have hready : (readyDescriptors reply.process answers.poll).1 =
            (readyDescriptors state.process answers.poll).1 := by
          cases answers.poll with
          | error errno => rfl
          | ok events => simp only [readyDescriptors, hfd]
        show (readyDescriptors reply.process answers.poll).1 = true ∧ _ ↔ _
        rw [hready]
        exact Iff.rfl
  · rename_i hpassive
    refine ⟨⟨Or.inl, ?_⟩, Iff.rfl⟩
    rintro (h | ⟨hstop, hpending, -⟩)
    · exact h
    · cases hexited : state.exited with
      | true => rfl
      | false => exact absurd ⟨hstop, hpending, hexited⟩ hpassive

/-- A worker that is stopped is reaped: the handle has it, and so does the log. -/
theorem stopBlock_ok (h : WorkerShown past state) (hexited : state.exited = state.process.reaped) :
    PieceOk past False state (stopBlock config options answers state) := by
  unfold stopBlock
  split
  · cases hreply : gwProcessStop state.process (stopTimeoutMs config) answers.stopProcess with
    | none => exact .of_quiet h.grown (quiet_note state (by simp)) id
    | some reply =>
      have hquiet : Quiet state.shared.log ({ state with process := reply.process }.note
          (.stopRequested :: reply.calls.map .system)).shared.log :=
        ⟨_, rfl, by simp⟩
      dsimp only
      cases hresult : reply.result with
      | error error => exact .of_quiet h.grown hquiet id
      | ok value =>
        have hreaped : reply.process.reaped = true := (gwProcessStop_effect hreply).reaped hresult
        have hnoted : WorkerShown past (state.note [.stopRequested]) := h.note (by simp)
        have hshown := hnoted.reply (reapsSeen_rule.stop hreply)
        refine ⟨hshown.of_same ?_ rfl rfl rfl, hreaped.symm, .of_quiet h.grown hquiet id⟩
        simp [AttemptState.note, SupervisorState.note]
  · exact pieceOk_next h hexited

/-- The poll changes nothing, and where it ends the attempt nothing is read. -/
theorem pollBlock_reads :
    (pollBlock answers state).Meets (fun next => next = state)
      (fun _ => ¬ ReadPublishes strtod config options answers state)
      (fun _ => ¬ ReadPublishes strtod config options answers state) := by
  unfold pollBlock
  split
  · rename_i errno hpoll
    split
    · rfl
    · rintro ⟨hready, -⟩
      rw [hpoll] at hready
      cases hready
  · rfl

theorem pollBlock_ok (h : WorkerShown past state) (hexited : state.exited = state.process.reaped) :
    PieceOk past False state (pollBlock answers state) := by
  unfold pollBlock
  split
  · split
    · exact pieceOk_next h hexited
    · exact .of_quiet h.grown (.refl _) id
  · exact pieceOk_next h hexited

/-- A snapshot that shows the worker of the handle goes wrong when it is published
after the worker was reaped. -/
theorem publish_ok (h : WorkerShown past state) (hexited : state.exited = state.process.reaped)
    {shown : SupervisorState} {next : AttemptState} (hshared : next.shared = shown.publish options)
    (hlog : shown.log = state.shared.log) (hkind : shown.snapshot.processKind = .worker)
    (hpid : shown.snapshot.processPid = state.process.pid) (hprocess : next.process = state.process)
    (hsame : next.exited = state.exited) :
    PieceOk past (state.exited = true ∧ options.observer = true) state (.next next) := by
  have hsnapshot : next.shared.snapshot = shown.snapshot := by
    rw [hshared, SupervisorState.publish]
    split
    · rfl
    · rfl
  have hkind' : next.shared.snapshot.processKind = state.shared.snapshot.processKind := by
    rw [hsnapshot, hkind, h.kind]
  have hpid' : next.shared.snapshot.processPid = state.shared.snapshot.processPid := by
    rw [hsnapshot, hpid, h.shown]
  have hexited' : next.exited = next.process.reaped := by rw [hsame, hprocess, hexited]
  cases hobserver : options.observer with
  -- nobody observes, so nothing is published
  | false =>
    have hnext : next.shared.log = state.shared.log := by
      rw [hshared, SupervisorState.publish, if_neg (by simp [hobserver]), hlog]
    refine ⟨h.of_same hnext hprocess hkind' hpid', hexited', ?_⟩
    rw [hnext]
    exact .of_quiet h.grown (.refl _) (by simp)
  | true =>
    have hnext : next.shared.log = state.shared.log ++ [.published shown.snapshot] := by
      rw [hshared, SupervisorState.publish, if_pos hobserver, SupervisorState.note, hlog]
    have hshown : WorkerShown past (state.note [.published shown.snapshot]) := h.note (by simp)
    refine ⟨hshown.of_same hnext hprocess hkind' hpid', hexited', ?_⟩
    rw [hnext]
    refine ⟨h.grown.trans (List.prefix_append _ _), ?_⟩
    rw [h.publish_iff hkind hpid, hexited]
    simp

/-- What follows a completed record goes wrong when it publishes one of a reaped
worker. -/
theorem progressBlock_ok (h : WorkerShown past state)
    (hexited : state.exited = state.process.reaped) :
    PieceOk past
      (state.exited = true ∧ answers.progressClock ≠ none ∧ options.observer = true ∧
        (state.receivedProgress = true ∨
          (gwChannelTransition state.shared.runtime .progress config.defaults).2 = .ok ()))
      state (progressBlock config options answers state) := by
  unfold progressBlock
  cases answers.progressClock with
  | none => exact .of_quiet h.grown (quiet_note state (by simp)) (by simp)
  | some now =>
    have hclock : Quiet state.shared.log (state.note [.clock (some now)]).shared.log :=
      quiet_note state (by simp)
    have hnoted : WorkerShown past (state.note [.clock (some now)]) := h.note (by simp)
    have hquiet : Verdict past False state.shared.log
        (state.note [.clock (some now)]).shared.log := .of_quiet h.grown hclock id
    dsimp only
    split
    -- not the first record of the attempt: it is published at once
    · rename_i hreceived
      have hreceived : state.receivedProgress = true := hreceived
      have hpublished := @publish_ok options past _ hnoted hexited _
        (publishProgress options { state.note [.clock (some now)] with lastProgressAt := now })
        rfl rfl h.kind h.shown rfl rfl
      refine PieceOk.behind hpublished hquiet ?_
      simp [hreceived, AttemptState.note]
    -- the first one: the channel has to go to running in front of it
    · rename_i hreceived
      have hreceived : ¬ state.receivedProgress = true := hreceived
      have hmoved : Quiet (state.note [.clock (some now)]).shared.log
          ((state.note [.clock (some now)]).shared.transition config.defaults .progress).1.log :=
        ⟨_, rfl, by simp⟩
      split
      · rename_i error herror
        have herror : (gwChannelTransition state.shared.runtime .progress config.defaults).2 =
            .error error := herror
        refine .of_quiet h.grown (hclock.trans hmoved) ?_
        simp [hreceived, herror]
      · rename_i value hvalue
        have hvalue : (gwChannelTransition state.shared.runtime .progress config.defaults).2 =
            .ok value := hvalue
        have htransition : WorkerShown past
            ((state.note [.clock (some now)]).note [.transition .progress (.ok value)
              (gwChannelTransition state.shared.runtime .progress config.defaults).1]) :=
          hnoted.note (by simp)
        have hmovedLog : ((state.note [.clock (some now)]).shared.transition config.defaults
            .progress).1.log =
              ((state.note [.clock (some now)]).note [.transition .progress (.ok value)
                (gwChannelTransition state.shared.runtime .progress config.defaults).1]).shared.log := by
          show _ ++ [SupervisorEvent.transition .progress
            (gwChannelTransition state.shared.runtime .progress config.defaults).2 _] = _
          rw [hvalue]
          rfl
        have hpublished := @publish_ok options past _ htransition hexited _
          (publishProgress options
            { state.note [.clock (some now)] with
              lastProgressAt := now
              receivedProgress := true
              runningSince := now
              shared := ((state.note [.clock (some now)]).shared.transition config.defaults
                .progress).1 })
          rfl hmovedLog h.kind h.shown rfl rfl
        have hfront : Verdict past False state.shared.log
            ((state.note [.clock (some now)]).note [.transition .progress (.ok value)
              (gwChannelTransition state.shared.runtime .progress config.defaults).1]).shared.log := by
          rw [← hmovedLog]
          exact .of_quiet h.grown (hclock.trans hmoved) id
        refine PieceOk.behind hpublished hfront ?_
        simp [hvalue, AttemptState.note]

/-- A read reaps nobody. -/
theorem read_reaped (process : GwProcess) (stream : GwProcessStream) (answer : ReadAnswer) :
    (gwProcessRead process stream answer).process.reaped = process.reaped := by
  unfold gwProcessRead
  split
  · rfl
  · split
    · rfl
    · cases stream with
      | stdout => rfl
      | stderr => rfl
    · split
      · rfl
      · rfl

/-- What a read of an open descriptor returns: the bytes. -/
theorem read_result_ok {process : GwProcess} {stream : GwProcessStream}
    (hopen : ¬ process.descriptor stream < 0) (data : Bytes) :
    ∃ endOfStream, (gwProcessRead process stream (.ok data)).result = .ok ⟨data, endOfStream⟩ := by
  unfold gwProcessRead
  rw [if_neg hopen]
  cases data with
  | nil => exact ⟨true, rfl⟩
  | cons b rest => exact ⟨false, rfl⟩

/-- Or nothing yet, or an error. -/
theorem read_result_error {process : GwProcess} {stream : GwProcessStream}
    (hopen : ¬ process.descriptor stream < 0) (errno : Errno) :
    (gwProcessRead process stream (.error errno)).result = .ok ⟨[], false⟩ ∨
      ∃ error, (gwProcessRead process stream (.error errno)).result = .error error := by
  unfold gwProcessRead
  rw [if_neg hopen]
  dsimp only
  split
  · exact Or.inl rfl
  · exact Or.inr ⟨_, rfl⟩

/-- A descriptor with events after `poll` is an open one. -/
theorem open_of_ready {process : GwProcess} {poll : PollAnswer}
    (hready : (readyDescriptors process poll).1 = true) :
    ¬ process.descriptor .stdout < 0 := by
  show ¬ process.stdoutFd < 0
  cases poll with
  | error errno => cases hready
  | ok events =>
    simp only [readyDescriptors, Bool.and_eq_true, decide_eq_true_eq] at hready
    exact not_lt.mpr hready.1

/-- Without bytes there is no record. -/
theorem not_readPublishes_of_error {errno : Errno} (hread : answers.stdoutRead = .error errno) :
    ¬ ReadPublishes strtod config options answers state := by
  rintro ⟨-, data, hdata, -⟩
  rw [hread] at hdata
  cases hdata

/-- Once bytes were read, it is what the parser makes of them that is published or not. -/
theorem readPublishes_iff_of_read {data : Bytes}
    (hready : (readyDescriptors state.process answers.poll).1 = true)
    (hread : answers.stdoutRead = .ok data) :
    ReadPublishes strtod config options answers state ↔
      (gwProgressParserConsume strtod state.parser data state.latestProgress).2 = .ok () ∧
      (gwProgressParserConsume strtod state.parser data state.latestProgress).1.completed = true ∧
      answers.progressClock ≠ none ∧ options.observer = true ∧
      (state.receivedProgress = true ∨
        (gwChannelTransition state.shared.runtime .progress config.defaults).2 = .ok ()) := by
  constructor
  · rintro ⟨-, data', hdata, hpublished⟩
    rw [hread, Except.ok.injEq] at hdata
    exact hdata ▸ hpublished
  · exact fun hpublished => ⟨hready, data, hread, hpublished⟩

/-- The one block that can go wrong: it reads from a reaped worker and publishes. -/
theorem stdoutBlock_ok (h : WorkerShown past state) (hexited : state.exited = state.process.reaped) :
    PieceOk past
      (state.exited = true ∧ ReadPublishes strtod config options answers state) state
      (stdoutBlock strtod config options answers
        (readyDescriptors state.process answers.poll).1 state) := by
  unfold stdoutBlock
  split
  · rename_i hready
    have hopen : ¬ state.process.descriptor .stdout < 0 := open_of_ready hready
    have hshown := h.reply (read_reapsSeen state.process .stdout answers.stdoutRead)
    have hreaped := read_reaped state.process .stdout answers.stdoutRead
    have hquiet := quiet_calls state.shared.log
      (gwProcessRead state.process .stdout answers.stdoutRead).calls
    dsimp only
    -- the state after the read, whatever it got
    generalize hmiddle : ({ state with
      process := (gwProcessRead state.process .stdout answers.stdoutRead).process }.note
        ((gwProcessRead state.process .stdout answers.stdoutRead).calls.map .system)) = middle
      at hshown ⊢
    have hparser : middle.parser = state.parser := by rw [← hmiddle]; rfl
    have hlatest : middle.latestProgress = state.latestProgress := by rw [← hmiddle]; rfl
    have hreceived : middle.receivedProgress = state.receivedProgress := by rw [← hmiddle]; rfl
    have hruntime : middle.shared.runtime = state.shared.runtime := by rw [← hmiddle]; rfl
    have hsame : middle.exited = state.exited := by rw [← hmiddle]; rfl
    have hexited' : middle.exited = middle.process.reaped := by
      rw [hsame, hexited, ← hreaped, ← hmiddle]
      rfl
    have hquiet : Quiet state.shared.log middle.shared.log := by
      rw [← hmiddle]
      exact hquiet
    cases hread : answers.stdoutRead with
    | error errno =>
      have hnever : ¬ (state.exited = true ∧
          ReadPublishes strtod config options answers state) :=
        fun hpublishes => not_readPublishes_of_error hread hpublishes.2
      rcases read_result_error hopen errno with hresult | ⟨error, hresult⟩
      · rw [hresult]
        exact ⟨hshown.of_same rfl rfl rfl rfl, hexited', .of_quiet h.grown hquiet hnever⟩
      · rw [hresult]
        exact .of_quiet h.grown hquiet hnever
    | ok data =>
      obtain ⟨endOfStream, hresult⟩ := read_result_ok hopen data
      rw [hresult, readPublishes_iff_of_read hready hread]
      dsimp only
      rw [hparser, hlatest]
      cases hconsumed : (gwProgressParserConsume strtod state.parser data
          state.latestProgress).2 with
      | error error =>
        refine .of_quiet h.grown hquiet ?_
        rintro ⟨-, hok, -⟩
        cases hok
      | ok value =>
        dsimp only
        split
        · rename_i hcompleted
          have hrecorded := @WorkerShown.note past _
            (@WorkerShown.of_same past middle hshown
              { middle with
                parser := (gwProgressParserConsume strtod state.parser data
                  state.latestProgress).1.parser
                latestProgress := (gwProgressParserConsume strtod state.parser data
                  state.latestProgress).1.progress } rfl rfl rfl rfl)
            [.record (gwProgressParserConsume strtod state.parser data
              state.latestProgress).1.progress] (by simp)
          have hpiece := @progressBlock_ok config options answers past _ hrecorded hexited'
          have hfront := @Verdict.of_quiet past state.shared.log _ False h.grown
            (hquiet.trans (@quiet_note middle
              [.record (gwProgressParserConsume strtod state.parser data
                state.latestProgress).1.progress] (by simp))) id
          refine PieceOk.behind hpiece hfront ?_
          show _ ↔ False ∨ (middle.exited = true ∧ answers.progressClock ≠ none ∧
            options.observer = true ∧ (middle.receivedProgress = true ∨
              (gwChannelTransition middle.shared.runtime .progress config.defaults).2 = .ok ()))
          rw [false_or, hsame, hreceived, hruntime]
          constructor
          · rintro ⟨hexit, -, -, hrest⟩
            exact ⟨hexit, hrest⟩
          · rintro ⟨hexit, hrest⟩
            exact ⟨hexit, rfl, hcompleted, hrest⟩
        · rename_i hcompleted
          refine ⟨hshown.of_same rfl rfl rfl rfl, hexited', .of_quiet h.grown hquiet ?_⟩
          exact fun hdone => hcompleted hdone.2.2.1
  · rename_i hready
    exact ⟨h, hexited, .of_quiet h.grown (.refl _) (by simp [ReadPublishes, hready])⟩

/-- What the worker prints on stderr is printed, not published. -/
theorem stderrBlock_ok (h : WorkerShown past state) (hexited : state.exited = state.process.reaped)
    (ready : Bool) : PieceOk past False state (stderrBlock channel answers ready state) := by
  unfold stderrBlock
  split
  · have hshown := h.reply (read_reapsSeen state.process .stderr answers.stderrRead)
    have hreaped := read_reaped state.process .stderr answers.stderrRead
    have hquiet := quiet_calls state.shared.log
      (gwProcessRead state.process .stderr answers.stderrRead).calls
    dsimp only
    split
    · exact .of_quiet h.grown hquiet id
    · have hprinted : ∀ (lines : StderrLineBuffer) (printed : List Bytes),
          WorkerShown past
            (({ { state with process := (gwProcessRead state.process .stderr
              answers.stderrRead).process }.note
                ((gwProcessRead state.process .stderr answers.stderrRead).calls.map .system) with
              stderrLines := lines } : AttemptState).note (printed.map .printed)) :=
        fun lines printed => (@WorkerShown.note past _ hshown (printed.map .printed)
          (by simp)).of_same rfl rfl rfl rfl
      have hquieter : ∀ (printed : List Bytes), Quiet state.shared.log
          (state.shared.log ++ (gwProcessRead state.process .stderr
            answers.stderrRead).calls.map .system ++ printed.map .printed) :=
        fun printed => hquiet.trans ⟨_, rfl, by simp⟩
      split
      · refine ⟨(@WorkerShown.note past _ (hprinted _ _) (List.map .printed _)
          (by simp)).of_same rfl rfl rfl rfl, hexited.trans hreaped.symm,
            .of_quiet h.grown ((hquieter _).trans ⟨_, rfl, by simp⟩) id⟩
      · exact ⟨hprinted _ _, hexited.trans hreaped.symm, .of_quiet h.grown (hquieter _) id⟩
  · exact pieceOk_next h hexited

/-- The exit poll reaps the worker behind the reads of its turn. -/
theorem exitBlock_ok (h : WorkerShown past state) (hexited : state.exited = state.process.reaped) :
    PieceOk past False state (exitBlock answers state) := by
  unfold exitBlock
  split
  · exact pieceOk_next h hexited
  · rename_i hrunning
    have hshown := h.reply (reapsSeen_rule.pollExit state.process answers.wait)
    have hquiet := quiet_calls state.shared.log (gwProcessPollExit state.process answers.wait).calls
    dsimp only
    cases hresult : (gwProcessPollExit state.process answers.wait).result with
    | error error => exact .of_quiet h.grown hquiet id
    | ok exited =>
      refine ⟨hshown.of_same rfl rfl rfl rfl, ?_, .of_quiet h.grown hquiet id⟩
      show exited = (gwProcessPollExit state.process answers.wait).process.reaped
      cases exited with
      | true => exact ((gwProcessPollExit_effect state.process answers.wait).2.1 hresult).symm
      | false =>
        rw [pollExit_false hresult, ← hexited]
        exact (Bool.eq_false_iff.mpr hrunning).symm

/-- A stable worker is published only while it has not exited. -/
theorem stableBlock_ok (h : WorkerShown past state)
    (hexited : state.exited = state.process.reaped) :
    PieceOk past False state (stableBlock config options answers state) := by
  unfold stableBlock
  split
  · rename_i hrunning
    have hclock : Quiet state.shared.log (state.note [.clock answers.stableClock]).shared.log :=
      quiet_note state (by simp)
    have hnoted : WorkerShown past (state.note [.clock answers.stableClock]) := h.note (by simp)
    dsimp only
    split
    · have hmoved : Quiet (state.note [.clock answers.stableClock]).shared.log
          ((state.note [.clock answers.stableClock]).shared.transition config.defaults
            .stable).1.log := ⟨_, rfl, by simp⟩
      have htransition : WorkerShown past
          { state.note [.clock answers.stableClock] with
            shared := ((state.note [.clock answers.stableClock]).shared.transition config.defaults
              .stable).1 } :=
        (@WorkerShown.note past _ hnoted [.transition .stable
          (gwChannelTransition state.shared.runtime .stable config.defaults).2
          (gwChannelTransition state.shared.runtime .stable config.defaults).1] (by simp)).of_same
            rfl rfl rfl rfl
      split
      · exact .of_quiet h.grown (hclock.trans hmoved) id
      · have hpublished := @publish_ok options past _ htransition hexited _
          { state.note [.clock answers.stableClock] with
            shared := ((((state.note [.clock answers.stableClock]).shared.transition
              config.defaults .stable).1.updateRuntime (ascii "stable")).publish options)
            stableReported := true }
          rfl rfl h.kind h.shown rfl rfl
        have hboth : Verdict past False state.shared.log
            ((state.note [.clock answers.stableClock]).shared.transition config.defaults
              .stable).1.log := .of_quiet h.grown (hclock.trans hmoved) id
        have hnever : False ↔ False ∨ (state.exited = true ∧ options.observer = true) := by
          simp [hrunning.1]
        exact hpublished.mono (fun _ hnext => ⟨hnext.1, hnext.2.1, hboth.trans hnext.2.2 hnever⟩)
          (fun _ hlast => hboth.trans hlast hnever) fun _ hlast => hboth.trans hlast hnever
    · exact ⟨hnoted, hexited, .of_quiet h.grown hclock id⟩
  · exact pieceOk_next h hexited

/-- A worker that is stopped for a timeout is not published any more in its turn. -/
theorem timeoutBlock_ok (h : WorkerShown past state)
    (hexited : state.exited = state.process.reaped) :
    PieceOk past False state (timeoutBlock config answers state) := by
  unfold timeoutBlock
  split
  · have hclock : Quiet state.shared.log (state.note [.clock answers.timeoutClock]).shared.log :=
      quiet_note state (by simp)
    have hnoted : WorkerShown past (state.note [.clock answers.timeoutClock]) := h.note (by simp)
    dsimp only
    split
    · cases hreply : gwProcessStop (state.note [.clock answers.timeoutClock]).process
          (stopTimeoutMs config) answers.timeoutStop with
      | none => exact .of_quiet h.grown hclock id
      | some reply =>
        have hshown := hnoted.reply (reapsSeen_rule.stop hreply)
        have hquiet := hclock.trans (quiet_calls _ reply.calls)
        dsimp only
        cases hresult : reply.result with
        | error error => exact .of_quiet h.grown hquiet id
        | ok value =>
          have hreaped : reply.process.reaped = true :=
            (gwProcessStop_effect hreply).reaped hresult
          exact ⟨hshown.of_same rfl rfl rfl rfl, hreaped.symm, .of_quiet h.grown hquiet id⟩
    · exact ⟨hnoted, hexited, .of_quiet h.grown hclock id⟩
  · exact pieceOk_next h hexited

/-- A turn goes wrong exactly when it publishes a record of a reaped worker.  The stop check
and the poll stand in front of the read that decides, and leave what it depends on; all
that stands behind it never goes wrong. -/
theorem attemptIteration_ok (h : WorkerShown past state)
    (hexited : state.exited = state.process.reaped) :
    PieceOk past (RecordAfterReap strtod config options answers state) state
      (attemptIteration strtod config channel options answers state) := by
  have hreads := @stopBlock_reads strtod config options answers state
  refine (stopBlock_ok h hexited).before ?_ ?_
  · intro stopped hstopped hshown hexited
    rw [hstopped] at hreads
    have hbad : stopped.exited = true ∧ ReadPublishes strtod config options answers stopped ↔
        RecordAfterReap strtod config options answers state :=
      and_congr hreads.1 hreads.2
    -- the poll and the reads
    have hpoll := @pollBlock_reads strtod config options answers stopped
    refine ((pollBlock_ok hshown hexited).before ?_ ?_).congr hbad
    · intro polled hpolled _ _
      rw [hpolled] at hpoll
      rw [show polled = stopped from hpoll]
      refine (stdoutBlock_ok hshown hexited).after ?_
      intro drained hdrained hexited
      exact (stderrBlock_ok hdrained hexited _).after fun quiet hquiet hexited =>
        (exitBlock_ok hquiet hexited).after fun polled hpolled hexited =>
          (stableBlock_ok hpolled hexited).after fun stable hstable hexited =>
            timeoutBlock_ok hstable hexited
    · intro hends hbad
      cases hflow : pollBlock answers stopped with
      | next next => exact hends next hflow
      | leave last =>
        rw [hflow] at hpoll
        exact hpoll hbad.2
      | blocked last =>
        rw [hflow] at hpoll
        exact hpoll hbad.2
  · intro hends hbad
    cases hflow : stopBlock config options answers state with
    | next next => exact hends next hflow
    | leave last =>
      rw [hflow] at hreads
      exact hreads hbad.1
    | blocked last =>
      rw [hflow] at hreads
      exact hreads hbad.1

end Blocks

/-! ## The attempt -/

section Attempt

variable (strtod : Strtod) (config : GwConfig) (channel : GwChannelConfig)
  (options : GwSupervisorOptions)

/-- Some turn of the loop publishes a record of a reaped worker. -/
def SomeRecordAfterReap (iterations : List IterationAnswers) (state : AttemptState) : Prop :=
  ∃ turn ∈ attemptTurns strtod config channel options iterations state,
    RecordAfterReap strtod config options turn.1 turn.2

/-- The loop goes wrong exactly when one of its turns does, by induction on the turns that
the environment answers. -/
theorem attemptLoop_ok {past : List SupervisorEvent} (iterations : List IterationAnswers)
    {state : AttemptState} (h : WorkerShown past state)
    (hexited : state.exited = state.process.reaped) :
    (attemptLoop strtod config channel options iterations state).Meets (fun _ => False)
      (fun last => Verdict past (SomeRecordAfterReap strtod config channel options iterations state)
        state.shared.log last.shared.log)
      (fun last => Verdict past (SomeRecordAfterReap strtod config channel options iterations state)
        state.shared.log last.shared.log) := by
  induction iterations generalizing state with
  | nil =>
    have hnever : ¬ SomeRecordAfterReap strtod config channel options [] state := by
      rintro ⟨turn, hturn, -⟩
      cases hturn
    unfold attemptLoop
    rw [Flow.loop]
    cases hcase : attemptDone state with
    | some result =>
      rw [attemptDone_eq hcase]
      exact .of_quiet h.grown (.refl _) hnever
    | none => exact .of_quiet h.grown (.refl _) hnever
  | cons answers rest ih =>
    unfold attemptLoop
    rw [Flow.loop]
    cases hcase : attemptDone state with
    | some result =>
      rw [attemptDone_eq hcase]
      refine .of_quiet h.grown (.refl _) ?_
      rintro ⟨turn, hturn, -⟩
      unfold attemptTurns at hturn
      rw [Flow.turns, hcase] at hturn
      cases hturn
    | none =>
      have hpiece := @attemptIteration_ok strtod config channel options answers past state h hexited
      dsimp only
      cases hbody : attemptIteration strtod config channel options answers state with
      -- the turn goes on: its own verdict, and that of the turns behind it
      | next later =>
        rw [hbody] at hpiece
        obtain ⟨hshown, hexited', hverdict⟩ := hpiece
        have hboth : SomeRecordAfterReap strtod config channel options (answers :: rest) state ↔
            RecordAfterReap strtod config options answers state ∨
              SomeRecordAfterReap strtod config channel options rest later :=
          Flow.exists_turn_of_next hcase hbody
        exact (ih hshown hexited').mono (fun _ hfalse => hfalse)
          (fun _ hlast => hverdict.trans hlast hboth) fun _ hlast => hverdict.trans hlast hboth
      | leave last =>
        rw [hbody] at hpiece
        have hboth : SomeRecordAfterReap strtod config channel options (answers :: rest) state ↔
            RecordAfterReap strtod config options answers state :=
          Flow.exists_turn_of_last hcase fun later hnext => by
            rw [hbody] at hnext
            cases hnext
        exact @PieceOk.congr past _ _ state (.leave last) hpiece hboth.symm
      | blocked last =>
        rw [hbody] at hpiece
        have hboth : SomeRecordAfterReap strtod config channel options (answers :: rest) state ↔
            RecordAfterReap strtod config options answers state :=
          Flow.exists_turn_of_last hcase fun later hnext => by
            rw [hbody] at hnext
            cases hnext
        exact @PieceOk.congr past _ _ state (.blocked last) hpiece hboth.symm

/-- The state in which the loop of an attempt starts, when it comes to its loop. -/
def loopStart (answers : AttemptAnswers) (state : SupervisorState) : Option AttemptState :=
  match gwPipelineBuild answers.allocator channel config.mediamtx options.ffmpegBinary with
  | .error _ => none
  | .ok arguments =>
      let reply := gwProcessStart gwProcessInit arguments answers.start
      match reply.result with
      | .error _ => none
      | .ok _ =>
          answers.startedClock.map fun now =>
            attemptStart options reply.process now
              ((state.note (reply.calls.map .system)).note [.clock (some now)])

/-- The log an attempt leaves, also while it has not returned. -/
def attemptLog {ρ : Type} : AttemptRun ρ → List SupervisorEvent
  | .next (_, shared) => shared.log
  | .leave _ => []
  | .blocked shared => shared.log

/-- What an attempt publishes shows a worker that was spawned and not reaped in the
attempt, as long as it has run. -/
def PublishesLivePids (answers : AttemptAnswers) (state : SupervisorState) : Prop :=
  EventsLive state.log
    (attemptLog (runWorkerAttempt strtod config channel options answers state : AttemptRun Empty))

/-- The start of the loop shows the worker that was just spawned. -/
theorem attemptStart_shown {process : GwProcess} {now : Timespec} {past : List SupervisorEvent}
    {state : SupervisorState} {events : List SupervisorEvent} (hlog : state.log = past ++ events)
    (hquiet : ∀ snapshot, .published snapshot ∉ events)
    (hspawned : .system (.spawn process.pid) ∈ events) (hreaped : process.reaped = false)
    (hnone : ∀ pid status, .system (.reap pid status) ∉ events) :
    WorkerShown past (attemptStart options process now state) ∧
      (attemptStart options process now state).exited =
        (attemptStart options process now state).process.reaped ∧
      EventsLive past (attemptStart options process now state).shared.log := by
  have heach : Log.Each LiveWhenPublished events := by
    have hfront := @each_of_quiet [] events (Log.each_nil _) hquiet
    rwa [List.nil_append] at hfront
  have hworker : (attemptStart options process now state).shared.snapshot.processKind = .worker ∧
      (attemptStart options process now state).shared.snapshot.processPid = process.pid := by
    unfold attemptStart SupervisorState.publish
    dsimp only
    split
    · exact ⟨rfl, rfl⟩
    · exact ⟨rfl, rfl⟩
  obtain ⟨shown, hgrown, hsilent⟩ :
      ∃ shown, (attemptStart options process now state).shared.log = past ++ (events ++ shown) ∧
        (shown = [] ∨ ∃ snapshot, shown = [.published snapshot] ∧
          snapshot.processPid = process.pid) := by
    unfold attemptStart SupervisorState.publish
    dsimp only
    split
    · exact ⟨_, by simp [SupervisorState.note, hlog, List.append_assoc]; rfl,
        Or.inr ⟨_, rfl, rfl⟩⟩
    · exact ⟨[], by simp [hlog], Or.inl rfl⟩
  have hdrop : (attemptStart options process now state).shared.log.drop past.length =
      events ++ shown := by rw [hgrown, List.drop_left]
  have hshown : ∀ call, SupervisorEvent.system call ∉ shown := by
    intro call
    rcases hsilent with rfl | ⟨snapshot, rfl, -⟩
    · simp
    · simp
  refine ⟨⟨⟨_, hgrown.symm⟩, ?_, ?_, ?_, hworker.1, hworker.2⟩, hreaped.symm, ?_⟩
  · rw [hdrop]
    exact List.mem_append_left _ hspawned
  · intro _ pid status hmem
    rw [hdrop] at hmem
    rcases List.mem_append.mp hmem with hmem | hmem
    · exact hnone pid status hmem
    · exact hshown _ hmem
  · intro htrue
    rw [show (attemptStart options process now state).process = process from rfl, hreaped] at htrue
    cases htrue
  · refine ⟨_, hgrown, ?_⟩
    rcases hsilent with rfl | ⟨snapshot, rfl, hpid⟩
    · rw [List.append_nil]
      exact heach
    · refine Log.each_concat.mpr ⟨heach, fun _ => ⟨hpid ▸ hspawned, fun status => ?_⟩⟩
      exact hnone _ status

/-- What follows the loop publishes nothing. -/
theorem afterLoop_quiet {ρ : Type} {cleanup : StopAnswers} {state : AttemptState} :
    Quiet state.shared.log
      (attemptLog (finishAttempt config options cleanup state : AttemptRun ρ)) := by
  have hclose : ∀ state : AttemptState,
      Quiet state.shared.log (attemptLog (closeAttempt options state : AttemptRun ρ)) := by
    intro state
    unfold closeAttempt
    dsimp only
    split
    · exact quiet_calls _ _
    · exact quiet_calls _ _
  unfold finishAttempt
  split
  · cases gwProcessStop state.process (stopTimeoutMs config) cleanup with
    | none => exact .refl _
    | some reply => exact (quiet_calls _ reply.calls).trans (hclose _)
  · exact hclose state

/-- An attempt publishes the pids of children that were not reaped, exactly when no
turn of its loop publishes a record that is read after the worker was reaped. -/
theorem runWorkerAttempt_live (answers : AttemptAnswers) (state : SupervisorState) :
    PublishesLivePids strtod config channel options answers state ↔
      ∀ start, loopStart config channel options answers state = some start →
        ∀ turn ∈ attemptTurns strtod config channel options answers.iterations start,
          ¬ RecordAfterReap strtod config options turn.1 turn.2 := by
  have hnothing : EventsLive state.log state.log := ⟨[], by simp, Log.each_nil _⟩
  have hquiet : ∀ {log}, Quiet state.log log → EventsLive state.log log :=
    fun h => (EventsLive.quiet_iff List.prefix_rfl h).mpr hnothing
  unfold PublishesLivePids runWorkerAttempt loopStart
  cases gwPipelineBuild answers.allocator channel config.mediamtx options.ffmpegBinary with
  -- an attempt without a worker publishes nothing and has no turns
  | error error =>
    exact iff_of_true hnothing (fun start hstart => nomatch hstart)
  | ok arguments =>
    dsimp only
    have hcalls := quiet_calls state.log
      (gwProcessStart gwProcessInit arguments answers.start).calls
    have hspawned := gwProcessStart_spawned gwProcessInit arguments answers.start
    cases hresult : (gwProcessStart gwProcessInit arguments answers.start).result with
    | error error => exact iff_of_true (hquiet hcalls) (fun start hstart => nomatch hstart)
    | ok value =>
      obtain ⟨hspawn, hreaped, hnone⟩ := hspawned hresult
      dsimp only
      unfold superviseWorker
      cases answers.startedClock with
      | none =>
        refine iff_of_true ?_ (fun start hstart => nomatch hstart)
        dsimp only
        split
        · exact hquiet (hcalls.trans ⟨_, rfl, by simp⟩)
        · rename_i reply hreply
          refine hquiet (hcalls.trans ⟨.clock none :: reply.calls.map .system ++
            (gwProcessClose reply.process).calls.map .system, ?_, by simp⟩)
          simp [attemptLog, SupervisorState.note]
      | some now =>
        obtain ⟨hshown, hexited, hlive⟩ := @attemptStart_shown options
          (gwProcessStart gwProcessInit arguments answers.start).process now state.log
          ((state.note ((gwProcessStart gwProcessInit arguments answers.start).calls.map
            .system)).note [.clock (some now)])
          ((gwProcessStart gwProcessInit arguments answers.start).calls.map .system ++
            [.clock (some now)])
          (by simp [SupervisorState.note]) (by simp) (by simp [hspawn]) hreaped
          (by
            intro pid status hmem
            simp only [List.mem_append, List.mem_map, List.mem_singleton, reduceCtorEq,
              or_false] at hmem
            obtain ⟨call, hcall, heq⟩ := hmem
            cases heq
            exact hnone pid status hcall)
        have hloop := attemptLoop_ok strtod config channel options answers.iterations hshown hexited
        dsimp only [Option.map_some]
        have hsome : (∀ start, some (attemptStart options
            (gwProcessStart gwProcessInit arguments answers.start).process now
            ((state.note ((gwProcessStart gwProcessInit arguments answers.start).calls.map
              .system)).note [.clock (some now)])) = some start →
            ∀ turn ∈ attemptTurns strtod config channel options answers.iterations start,
              ¬ RecordAfterReap strtod config options turn.1 turn.2) ↔
            ¬ SomeRecordAfterReap strtod config channel options answers.iterations
              (attemptStart options (gwProcessStart gwProcessInit arguments answers.start).process
                now ((state.note ((gwProcessStart gwProcessInit arguments
                  answers.start).calls.map .system)).note [.clock (some now)])) := by
          simp [SomeRecordAfterReap]
        rw [hsome]
        cases hflow : attemptLoop strtod config channel options answers.iterations
            (attemptStart options (gwProcessStart gwProcessInit arguments answers.start).process
              now ((state.note ((gwProcessStart gwProcessInit arguments
                answers.start).calls.map .system)).note [.clock (some now)])) with
        | next last =>
          rw [hflow] at hloop
          exact hloop.elim
        | leave last =>
          rw [hflow] at hloop
          have hend := EventsLive.quiet_iff hloop.1
            (@afterLoop_quiet config options Empty answers.cleanupStop last)
          exact hend.trans (hloop.2.trans ⟨fun h => h.2, fun h => ⟨hlive, h⟩⟩)
        | blocked last =>
          rw [hflow] at hloop
          exact hloop.2.trans ⟨fun h => h.2, fun h => ⟨hlive, h⟩⟩

end Attempt

/-! ### A record in the pipe of a worker that has exited -/

/-- A worker that writes a record and exits: the exit poll comes before the read. -/
def recordLeftBehind : AttemptAnswers where
  allocator := fun _ => true
  start := plainStart 77
  startedClock := some (atSecond 1)
  startedStop := promptStop 1
  iterations :=
    [{ quietIteration 1 with wait := .status 0 },
      { quietIteration 1 with
        poll := .ok (true, false)
        stdoutRead :=
          .ok (ascii "frame=1" ++ [newline] ++ ascii "progress=end" ++ [newline]) },
      { quietIteration 1 with poll := .ok (true, true) }]
  cleanupStop := promptStop 1

/-- A supervisor that has just started. -/
def startedSupervisor : SupervisorState :=
  { supervisorStart channelInit with runtime := ⟨.starting, 0, 0, 0⟩ }

/-- The event shows a worker of this pid. -/
def showsWorker (pid : Int) : SupervisorEvent → Bool
  | .published snapshot => snapshot.processKind = .worker && snapshot.processPid = pid
  | _ => false

/-- The event reaps this pid. -/
def reapsPid (pid : Int) : SupervisorEvent → Bool
  | .system (.reap reaped _) => reaped = pid
  | _ => false

/-- A worker that is shown after it was reaped is no live worker. -/
theorem not_eventsLive {log : List SupervisorEvent} {n : Nat} {pid : Int}
    (hreaped : (log.take n).any (reapsPid pid) = true)
    (hshown : (log.drop n).head?.any (showsWorker pid) = true) : ¬ EventsLive [] log := by
  rintro ⟨events, heq, heach⟩
  rw [List.nil_append] at heq
  subst heq
  rw [Option.any_eq_true] at hshown
  obtain ⟨event, hevent, hshows⟩ := hshown
  obtain ⟨rest, hrest⟩ := List.head?_eq_some_iff.mp hevent
  have hsplit : log = log.take n ++ event :: rest := by rw [← hrest, List.take_append_drop]
  have hright := heach _ event rest hsplit
  cases event with
  | published snapshot =>
    simp only [showsWorker, Bool.and_eq_true, decide_eq_true_eq] at hshows
    obtain ⟨reap, hmem, hreaps⟩ := List.any_eq_true.mp hreaped
    cases reap with
    | system call =>
      cases call with
      | reap reaped status =>
        simp only [reapsPid, decide_eq_true_eq] at hreaps
        have hnone := (hright hshows.1).2 status
        rw [hshows.2, ← hreaps] at hnone
        exact hnone hmem
      | _ => cases hreaps
    | _ => cases hreaps
  | _ => cases hshows

/-- The record is published with the pid of the reaped worker. -/
theorem runWorkerAttempt_stale :
    ¬ ∀ answers, PublishesLivePids noNumber gwConfigInit channelInit cleanExitOptions answers
      startedSupervisor := by
  intro h
  refine @not_eventsLive (attemptLog (runWorkerAttempt noNumber gwConfigInit channelInit
    cleanExitOptions recordLeftBehind startedSupervisor : AttemptRun Empty)) 16 77 ?_ ?_
    (h recordLeftBehind)
  · decide +kernel
  · decide +kernel

end LearnApue.Gateway
