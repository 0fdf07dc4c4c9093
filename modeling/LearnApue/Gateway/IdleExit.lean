import LearnApue.Gateway.RestartCounts

set_option autoImplicit false
set_option maxRecDepth 2048

/-!
# Gateway: the main loop and the HTTP thread (`main.c`, `http_server.c`)

`run_channels` after its start: the main thread reads `active_threads` and its signals and
reloads, the HTTP thread runs one command after the other, and the supervisors run beside them.
In its idle mode the main thread leaves the loop when it read a count of zero; it then has the
HTTP thread finish and waits for the supervisors, with no one to read the signals.

A count of zero is no promise: a restart lowers it to zero between its stop and its start, and
a command that comes later raises it as well (`idle_exit_counterexample`).  When the count is
still zero as the loop is left, and no thread is announced from then on, none is live when the
wait is reached (`idle_exit`).
-/

namespace LearnApue.Gateway

open LearnApue.Foundation

/-! ## The two threads -/

/-- What a command of the HTTP thread does. -/
inductive ChannelAction where
  | start
  | stop
  | restart
  deriving DecidableEq

/-- A command of the HTTP thread; its channel has a name. -/
structure ChannelCommand where
  action : ChannelAction
  channelId : Bytes
  named : channelId ≠ []

/-- The call that a command makes. -/
def ChannelCommand.call (command : ChannelCommand) : LifecycleCall :=
  match command.action with
  | .start => .startChannel command.channelId
  | .stop => .stopChannel command.channelId
  | .restart => .restartChannel command.channelId

/-- Where the main thread is in `run_channels`. -/
inductive MainPhase where
  /-- at the head of the loop -/
  | head
  /-- after `gw_channel_manager_is_finished` -/
  | signals (finished : Bool)
  /-- before it has the lock for `gw_channel_manager_reload` -/
  | reload (candidate : GwConfig)
  /-- with the lock -/
  | reloading
  /-- past the loop -/
  | stopping
  /-- in the join of the HTTP thread -/
  | joining
  /-- at `gw_channel_manager_wait` -/
  | waits

/-- Where the HTTP thread is in `run_server`. -/
inductive ServerPhase where
  /-- at the head of the loop -/
  | head
  /-- in `poll` and `accept4` -/
  | polling
  /-- before it has the lock for a command -/
  | request (command : ChannelCommand)
  /-- with the lock -/
  | serving
  | over

/-- Who has `lifecycle_lock`. -/
inductive LockHolder where
  | main
  | server
  deriving DecidableEq

/-- The program in its main loop. -/
structure GatewayWorld where
  manager : GwChannelManager
  /-- the holder of `lifecycle_lock`, with what it has yet to do -/
  holder : Option (LockHolder × Lifecycle Unit)
  exitWhenIdle : Bool
  requestedStop : Int
  /-- `stop_requested` of the HTTP server -/
  serverStop : Bool
  main : MainPhase
  server : ServerPhase

/-- What `read_control_signals` finds: the last signal to stop, if any, whether there was a
`SIGHUP`, and whether the read failed. -/
structure ControlSignals where
  stop : Option Int
  reload : Bool
  failed : Bool

/-- `requested_stop` after the signals are read. -/
def ControlSignals.requestedStop (signals : ControlSignals) (before : Int) : Int :=
  if signals.failed then sigterm else signals.stop.getD before

/-- A move of the two threads. -/
inductive GatewayMove where
  | checks
  /-- with the configuration of a reload that is not rejected beforehand -/
  | reads (signals : ControlSignals) (candidate : Option GwConfig)
  | entersReload
  | stopsServer
  | joinsServer
  /-- a turn of the HTTP thread without a command -/
  | polls (failed : Bool)
  | requests (command : ChannelCommand)
  | entersCommand
  /-- a step of the lock's holder -/
  | acts (answer : Option Errno)
  | leavesLock

/-- The loop body after the signals are read. -/
def GatewayWorld.reads (world : GatewayWorld) (finished : Bool) (signals : ControlSignals)
    (candidate : Option GwConfig) : GatewayWorld :=
  let requestedStop := signals.requestedStop world.requestedStop
  if requestedStop ≠ 0 then
    { world with
        manager := { world.manager with stopSignal := requestedStop }
        requestedStop := requestedStop
        main := if finished then .stopping else .head }
  else if signals.reload then
    match candidate with
    | some candidate => { world with main := .reload candidate }
    | none => { world with main := .head }
  else if world.exitWhenIdle && finished then { world with main := .stopping }
  else { world with main := .head }

/-- What a move makes of the program. -/
def GatewayWorld.move (world : GatewayWorld) : GatewayMove → Option GatewayWorld
  | .checks =>
      match world.main with
      | .head =>
          some { world with main := .signals (gwChannelManagerIsFinished world.manager) }
      | _ => none
  | .reads signals candidate =>
      match world.main with
      | .signals finished => some (world.reads finished signals candidate)
      | _ => none
  | .entersReload =>
      match world.main, world.holder with
      | .reload candidate, none =>
          some { world with
            main := .reloading
            holder := some (.main, (LifecycleCall.reload candidate).body) }
      | _, _ => none
  | .stopsServer =>
      match world.main with
      | .stopping => some { world with main := .joining, serverStop := true }
      | _ => none
  | .joinsServer =>
      match world.main, world.server with
      | .joining, .over => some { world with main := .waits }
      | _, _ => none
  | .polls failed =>
      match world.server with
      | .head => some { world with server := if world.serverStop then .over else .polling }
      | .polling => some { world with server := if failed then .over else .head }
      | _ => none
  | .requests command =>
      match world.server with
      | .polling => some { world with server := .request command }
      | _ => none
  | .entersCommand =>
      match world.server, world.holder with
      | .request command, none =>
          some { world with
            server := .serving
            holder := some (.server, command.call.body) }
      | _, _ => none
  | .acts answer =>
      match world.holder with
      | some (holder, .step act next) =>
          (act world.manager answer).map fun (result, after) =>
            { world with manager := after, holder := some (holder, next result) }
      | _ => none
  | .leavesLock =>
      match world.holder with
      | some (.main, .done _) => some { world with main := .head, holder := none }
      | some (.server, .done _) => some { world with server := .head, holder := none }
      | _ => none

/-- A step of the program: a move, or one of a supervisor thread. -/
inductive GatewayStep (world : GatewayWorld) : GatewayWorld → Prop
  | move {after : GatewayWorld} (move : GatewayMove) (moved : world.move move = some after) :
      GatewayStep world after
  | supervisor {manager : GwChannelManager} (step : Interferes False world.manager manager) :
      GatewayStep world { world with manager := manager }

/-- `run_channels` at its loop; without a server there is no HTTP thread. -/
def gatewayWorldOf (serverEnabled exitWhenIdle : Bool) (manager : GwChannelManager) :
    GatewayWorld where
  manager := manager
  holder := none
  exitWhenIdle := exitWhenIdle
  requestedStop := 0
  serverStop := false
  main := .head
  server := if serverEnabled then .head else .over

/-! ## The condition -/

/-- `start_entry` counted a new thread. -/
def Announces (before after : GwChannelManager) : Prop :=
  ∃ slot, (before.entries slot).supervisors.length < (after.entries slot).supervisors.length

/-- The main thread has left the loop because it was idle. -/
def GatewayWorld.leftOnIdle (world : GatewayWorld) : Bool :=
  world.requestedStop == 0 &&
    match world.main with
    | .stopping | .joining | .waits => true
    | _ => false

/-- The step by which the main thread leaves finds the count still at zero, and from then
on no thread is announced. -/
structure QuietOnceIdle (before after : GatewayWorld) : Prop where
  leaves : before.leftOnIdle = false → after.leftOnIdle = true → before.manager.activeThreads = 0
  left : before.leftOnIdle = true → ¬ Announces before.manager after.manager

/-! ## What a command does to the count -/

/-- An act leaves `active_threads` as it is, announces a thread, or takes one off. -/
inductive CounterAct (before after : GwChannelManager) : Prop
  | same (kept : after.activeThreads = before.activeThreads)
  | announced (announces : Announces before after)
  | less (lower : after.activeThreads = (before.activeThreads + (2 ^ 64 - 1)) % 2 ^ 64)

section Counter

variable {slot : Fin gwMaxChannels}

theorem counterAct_refl (manager : GwChannelManager) : CounterAct manager manager := .same rfl

theorem acts_update_counter (f : GwChannelEntry → GwChannelEntry) :
    (updateEntry slot f).Acts CounterAct := Section.acts_write fun _ => .same rfl

theorem announceThread_counter : (announceThread slot).Acts CounterAct := by
  refine Section.acts_write fun manager => .announced ⟨slot, ?_⟩
  simp only [setEntry_self, GwChannelEntry.announced, List.length_append, List.length_singleton]
  exact Nat.lt_succ_self _

theorem startEntry_counter : (startEntry slot).Acts CounterAct := by
  refine Section.acts_bind (acts_update_counter _) fun _ => ?_
  refine Section.acts_bind (acts_update_counter _) fun _ => ?_
  refine Section.acts_bind (acts_update_counter _) fun _ => ?_
  refine Section.acts_bind announceThread_counter fun _ => ?_
  refine Section.acts_bind ⟨?_, fun _ => trivial⟩ fun answer => ?_
  · intro manager answer result after heq
    rw [Option.some.injEq, Prod.mk.injEq] at heq
    exact .same (by rw [← heq.2]; rfl)
  · cases answer with
    | none => exact Section.acts_bind (acts_update_counter _) fun _ => trivial
    | some errno =>
      refine Section.acts_bind (Section.acts_write fun _ => .less rfl) fun _ => ?_
      refine Section.acts_bind (acts_update_counter _) fun _ => ?_
      exact Section.acts_bind (Section.acts_read counterAct_refl _) fun _ => trivial

theorem reapEntry_counter : (reapEntry slot).Acts CounterAct := by
  refine Section.acts_bind ⟨?_, fun _ => trivial⟩ fun _ => acts_update_counter _
  intro manager answer result after heq
  obtain ⟨entry, -, heq⟩ := Option.map_eq_some_iff.mp heq
  rw [Prod.mk.injEq] at heq
  exact .same (by rw [← heq.2]; rfl)

theorem stopEntry_counter : (stopEntry slot).Acts CounterAct := by
  refine Section.acts_bind (Section.acts_read counterAct_refl _) fun started => acts_runWhen ?_
  exact Section.acts_bind (acts_update_counter _) fun _ => reapEntry_counter

theorem slotClass_counter (slot : Fin gwMaxChannels) :
    SlotClass slot fun body => body.Acts CounterAct :=
  { plainClass_acts counterAct_refl with
    start := startEntry_counter
    stop := stopEntry_counter
    reap := reapEntry_counter }

theorem command_counter {channelId : Bytes} {body : Lifecycle (Except GwError Unit)}
    (h : CommandBody channelId body) : body.Acts CounterAct :=
  (plainClass_acts counterAct_refl).command slotClass_counter h

/-- Every act of a command of the HTTP thread. -/
theorem ChannelCommand.body_counter (command : ChannelCommand) :
    command.call.body.Acts CounterAct := by
  obtain ⟨action, channelId, named⟩ := command
  cases action with
  | start =>
    exact Section.acts_bind (command_counter (gwChannelManagerStartChannel_body channelId))
      fun _ => trivial
  | stop =>
    exact Section.acts_bind (command_counter (gwChannelManagerStopChannel_body channelId))
      fun _ => trivial
  | restart =>
    exact Section.acts_bind (command_counter (gwChannelManagerRestartChannel_body channelId))
      fun _ => trivial

end Counter

/-! ## The manager under the two threads -/

/-- The lock and its callers as a monitor; a thread arrives when it enters. -/
def GatewayWorld.monitor (world : GatewayWorld) : Monitor GwChannelManager (Option Errno) :=
  ⟨world.manager, [], world.holder.map Prod.snd⟩

theorem ChannelCommand.calls (command : ChannelCommand) (manager : GwChannelManager) :
    Calls manager command.call.body := by
  obtain ⟨action, channelId, named⟩ := command
  refine ⟨_, ?_, rfl⟩
  cases action <;> exact decide_eq_true named

theorem Interferes.stoppable {stoppable : Prop} {before after : GwChannelManager}
    (h : Interferes False before after) : Interferes stoppable before after := by
  cases h with
  | thread slot step => exact .thread slot step
  | finishes slot found phase => exact .finishes slot found phase
  | requestStop allowed signal nonzero => exact allowed.elim

section Monitored

variable {world after : GatewayWorld}

/-- A caller enters the free lock. -/
theorem monitor_enters {manager : GwChannelManager} {body : Lifecycle Unit}
    (h : Calls manager body) :
    Relation.ReflTransGen (Monitor.Step (managerSetting True fun _ => True) Calls)
      ⟨manager, [], none⟩ ⟨manager, [], some body⟩ :=
  (Relation.ReflTransGen.single (.arrive h)).tail
    (@Monitor.Step.enter _ _ _ _ manager [] [] body)

theorem GatewayWorld.monitor_reads (finished : Bool) (signals : ControlSignals)
    (candidate : Option GwConfig) :
    Relation.ReflTransGen (Monitor.Step (managerSetting True fun _ => True) Calls)
      world.monitor (world.reads finished signals candidate).monitor := by
  unfold GatewayWorld.reads
  dsimp only
  split
  · rename_i hstop
    exact .single (.interfere (.requestStop trivial _ hstop))
  · split
    · cases candidate <;> exact .refl
    · split <;> exact .refl

/-- A move is some steps of the monitor. -/
theorem GatewayWorld.monitor_move {move : GatewayMove} (h : world.move move = some after) :
    Relation.ReflTransGen (Monitor.Step (managerSetting True fun _ => True) Calls)
      world.monitor after.monitor := by
  unfold GatewayWorld.move at h
  cases move with
  | checks | stopsServer | joinsServer | polls failed | requests command =>
    dsimp only at h
    split at h <;> cases h <;> exact .refl
  | reads signals candidate =>
    dsimp only at h
    split at h
    · rename_i finished _
      exact Option.some.inj h ▸ world.monitor_reads finished signals candidate
    · cases h
  | entersReload =>
    dsimp only at h
    split at h
    · rename_i loaded _ hfree
      rw [← Option.some.inj h, GatewayWorld.monitor, hfree]
      exact monitor_enters ⟨.reload loaded, rfl, rfl⟩
    · cases h
  | entersCommand =>
    dsimp only at h
    split at h
    · rename_i command _ hfree
      rw [← Option.some.inj h, GatewayWorld.monitor, hfree]
      exact monitor_enters (command.calls world.manager)
    · cases h
  | acts answer =>
    dsimp only at h
    split at h
    · rename_i holder ρ act next hholder
      obtain ⟨⟨result, manager⟩, hact, rfl⟩ := Option.map_eq_some_iff.mp h
      rw [GatewayWorld.monitor, hholder]
      exact .single (.act trivial hact)
    · cases h
  | leavesLock =>
    dsimp only at h
    split at h
    · rename_i hholder
      rw [← Option.some.inj h, GatewayWorld.monitor, hholder]
      exact .single .leave
    · rename_i hholder
      rw [← Option.some.inj h, GatewayWorld.monitor, hholder]
      exact .single .leave
    · cases h

theorem GatewayStep.monitor (h : GatewayStep world after) :
    Relation.ReflTransGen (Monitor.Step (managerSetting True fun _ => True) Calls)
      world.monitor after.monitor := by
  cases h with
  | move move moved => exact world.monitor_move moved
  | supervisor step => exact .single (.interfere step.stoppable)

end Monitored

/-! ## What holds along a run -/

/-- What holds in every state of a quiet run: a command counts as its acts do, each holder is in
its phase, the HTTP thread is over when the wait is reached, and the count that the main thread
has left on is still zero. -/
structure GatewayInv (world : GatewayWorld) : Prop where
  serving : ∀ body, world.holder = some (.server, body) →
    world.server = .serving ∧ body.Acts CounterAct
  reloading : ∀ body, world.holder = some (.main, body) → world.main = .reloading
  joined : world.main = .waits → world.server = .over
  idle : world.leftOnIdle = true → world.manager.activeThreads = 0

/-- The count is at most one for each slot. -/
theorem ManagerSafe.activeThreads_le {manager : GwChannelManager} (h : ManagerSafe manager) :
    manager.activeThreads ≤ gwMaxChannels := by
  rw [h.activeThreads]
  unfold GwChannelManager.pendingThreads
  refine (Finset.sum_le_card_nsmul Finset.univ _ 1 fun slot _ => ?_).trans ?_
  · obtain ⟨stage, hok⟩ := h.slots slot
    exact hok.countedThreads_le
  · simp

/-- Nothing but an announcement ends a count of zero. -/
theorem CounterAct.stays_zero {before after : GwChannelManager} (h : CounterAct before after)
    (hzero : before.activeThreads = 0) (hquiet : ¬ Announces before after)
    (hsafe : ManagerSafe after) : after.activeThreads = 0 := by
  have hbound := hsafe.activeThreads_le
  cases h with
  | same kept => rw [kept, hzero]
  | announced announces => exact absurd announces hquiet
  | less lower =>
    rw [hzero] at lower
    unfold gwMaxChannels at hbound
    omega

theorem Interferes.counterAct {stoppable : Prop} {before after : GwChannelManager}
    (h : Interferes stoppable before after) : CounterAct before after := by
  cases h with
  | thread slot step => exact .same rfl
  | finishes slot found phase => exact .less rfl
  | requestStop allowed signal nonzero => exact .same rfl

section Invariant

variable {world after : GatewayWorld}

/-- The main thread does not hold the lock but while it reloads. -/
theorem GatewayInv.not_held (h : GatewayInv world) (hmain : world.main ≠ .reloading)
    (body : Lifecycle Unit) : world.holder ≠ some (.main, body) := fun hholder =>
  hmain (h.reloading body hholder)

/-- The main thread moves on without the lock. -/
theorem GatewayInv.main (h : GatewayInv world) (hmain : world.main ≠ .reloading)
    {phase : MainPhase} (stop : Bool) (hjoined : phase = .waits → world.server = .over)
    (hidle : GatewayWorld.leftOnIdle { world with main := phase } = true →
      world.manager.activeThreads = 0) :
    GatewayInv { world with main := phase, serverStop := stop } :=
  ⟨h.serving, fun body hholder => absurd hholder (h.not_held hmain body), hjoined, hidle⟩

/-- The HTTP thread moves on without the lock. -/
theorem GatewayInv.server (h : GatewayInv world) (hserver : world.server ≠ .serving)
    (hopen : world.server ≠ .over) (phase : ServerPhase) :
    GatewayInv { world with server := phase } :=
  ⟨fun body hholder => absurd (h.serving body hholder).1 hserver, h.reloading,
    fun hwaits => absurd (h.joined hwaits) hopen, h.idle⟩

theorem GatewayInv.checks (h : GatewayInv world) (hmain : world.main = .head) :
    GatewayInv { world with main := .signals (gwChannelManagerIsFinished world.manager) } :=
  h.main (by rw [hmain]; simp) world.serverStop (fun hwaits => by cases hwaits)
    fun hleft => by simp [GatewayWorld.leftOnIdle] at hleft

theorem GatewayInv.reads (h : GatewayInv world) {finished : Bool}
    (hmain : world.main = .signals finished) (signals : ControlSignals)
    (candidate : Option GwConfig)
    (hquiet : QuietOnceIdle world (world.reads finished signals candidate)) :
    GatewayInv (world.reads finished signals candidate) := by
  have hbefore : world.leftOnIdle = false := by simp [GatewayWorld.leftOnIdle, hmain]
  have hleave := hquiet.leaves hbefore
  have hphase : world.main ≠ .reloading := by simp [hmain]
  have hhead : GatewayInv { world with main := .head } :=
    h.main hphase world.serverStop (fun hwaits => by cases hwaits)
      fun hleft => by simp [GatewayWorld.leftOnIdle] at hleft
  unfold GatewayWorld.reads at hleave ⊢
  dsimp only at hleave ⊢
  split
  · rename_i hstop
    refine ⟨h.serving, fun body hholder => absurd hholder (h.not_held hphase body), ?_, ?_⟩
    · intro hwaits
      dsimp only at hwaits
      split at hwaits <;> cases hwaits
    · intro hleft
      simp [GatewayWorld.leftOnIdle, hstop] at hleft
  · split
    · cases candidate with
      | none => exact hhead
      | some candidate =>
        exact h.main hphase world.serverStop (fun hwaits => by cases hwaits)
          fun hleft => by simp [GatewayWorld.leftOnIdle] at hleft
    · split
      · rename_i hstop hreload hidle
        rw [if_neg hstop, if_neg hreload, if_pos hidle] at hleave
        exact h.main hphase world.serverStop (fun hwaits => by cases hwaits) hleave
      · exact hhead

/-- The holder's act. -/
theorem GatewayInv.acts (h : GatewayInv world) {ρ : Type} {holder : LockHolder}
    {act : GwChannelManager → Option Errno → Option (ρ × GwChannelManager)}
    {next : ρ → Lifecycle Unit} (hholder : world.holder = some (holder, .step act next))
    {answer : Option Errno} {result : ρ} {manager : GwChannelManager}
    (hact : act world.manager answer = some (result, manager))
    (hquiet : world.leftOnIdle = true → ¬ Announces world.manager manager)
    (hsafe : ManagerSafe manager) :
    GatewayInv { world with manager := manager, holder := some (holder, next result) } := by
  cases holder with
  | main =>
    have hphase := h.reloading _ hholder
    refine ⟨fun body hheld => (by cases hheld), fun _ _ => hphase, h.joined, fun hleft => ?_⟩
    simp [GatewayWorld.leftOnIdle, hphase] at hleft
  | server =>
    obtain ⟨hserving, hacts⟩ := h.serving _ hholder
    refine ⟨fun body hheld => ?_, fun body hheld => (by cases hheld), h.joined, fun hleft => ?_⟩
    · rw [Option.some.injEq, Prod.mk.injEq] at hheld
      exact ⟨hserving, hheld.2 ▸ hacts.2 result⟩
    · exact (hacts.1 _ _ _ _ hact).stays_zero (h.idle hleft) (hquiet hleft) hsafe

theorem GatewayInv.leavesLock (h : GatewayInv world) {holder : LockHolder} {done : Unit}
    (hholder : world.holder = some (holder, .done done)) :
    world.move .leavesLock = some after → GatewayInv after := by
  intro hmove
  cases holder with
  | main =>
    simp only [GatewayWorld.move, hholder, Option.some.injEq] at hmove
    rw [← hmove]
    exact ⟨fun _ hheld => (by cases hheld), fun _ hheld => (by cases hheld),
      fun hwaits => (by cases hwaits), fun hleft => by simp [GatewayWorld.leftOnIdle] at hleft⟩
  | server =>
    have hserving := (h.serving _ hholder).1
    simp only [GatewayWorld.move, hholder, Option.some.injEq] at hmove
    rw [← hmove]
    refine ⟨fun _ hheld => (by cases hheld), fun _ hheld => (by cases hheld), fun hwaits => ?_,
      h.idle⟩
    have hover := h.joined hwaits
    rw [hserving] at hover
    cases hover

/-- A move of a quiet run. -/
theorem GatewayInv.move (h : GatewayInv world) {move : GatewayMove}
    (hmove : world.move move = some after) (hquiet : QuietOnceIdle world after)
    (hsafe : ManagerSafe after.manager) : GatewayInv after := by
  cases move with
  | checks =>
    simp only [GatewayWorld.move] at hmove
    split at hmove
    · rename_i hmain
      exact Option.some.inj hmove ▸ h.checks hmain
    · cases hmove
  | reads signals candidate =>
    simp only [GatewayWorld.move] at hmove
    split at hmove
    · rename_i finished hmain
      rw [← Option.some.inj hmove] at hquiet ⊢
      exact h.reads hmain signals candidate hquiet
    · cases hmove
  | entersReload =>
    simp only [GatewayWorld.move] at hmove
    split at hmove
    · rw [← Option.some.inj hmove]
      exact ⟨fun _ hheld => (by cases hheld), fun _ _ => rfl, fun hwaits => (by cases hwaits),
        fun hleft => by simp [GatewayWorld.leftOnIdle] at hleft⟩
    · cases hmove
  | stopsServer =>
    simp only [GatewayWorld.move] at hmove
    split at hmove
    · rename_i hmain
      rw [← Option.some.inj hmove]
      refine h.main (by simp [hmain]) true (fun hwaits => by cases hwaits) fun hleft => h.idle ?_
      rw [GatewayWorld.leftOnIdle, hmain]
      exact hleft
    · cases hmove
  | joinsServer =>
    simp only [GatewayWorld.move] at hmove
    split at hmove
    · rename_i hmain hover
      rw [← Option.some.inj hmove]
      refine h.main (by simp [hmain]) world.serverStop (fun _ => hover) fun hleft => h.idle ?_
      rw [GatewayWorld.leftOnIdle, hmain]
      exact hleft
    · cases hmove
  | polls failed =>
    simp only [GatewayWorld.move] at hmove
    split at hmove
    · rename_i hserver
      exact Option.some.inj hmove ▸ h.server (by simp [hserver]) (by simp [hserver]) _
    · rename_i hserver
      exact Option.some.inj hmove ▸ h.server (by simp [hserver]) (by simp [hserver]) _
    · cases hmove
  | requests command =>
    simp only [GatewayWorld.move] at hmove
    split at hmove
    · rename_i hserver
      exact Option.some.inj hmove ▸ h.server (by simp [hserver]) (by simp [hserver]) _
    · cases hmove
  | entersCommand =>
    simp only [GatewayWorld.move] at hmove
    split at hmove
    · rename_i command hserver _
      rw [← Option.some.inj hmove]
      refine ⟨fun body hheld => ?_, fun _ hheld => (by cases hheld), fun hwaits => ?_, h.idle⟩
      · rw [Option.some.injEq, Prod.mk.injEq] at hheld
        exact ⟨rfl, hheld.2 ▸ command.body_counter⟩
      · have hover := h.joined hwaits
        rw [hserver] at hover
        cases hover
    · cases hmove
  | acts answer =>
    simp only [GatewayWorld.move] at hmove
    split at hmove
    · rename_i holder ρ act next hholder
      obtain ⟨⟨result, manager⟩, hact, rfl⟩ := Option.map_eq_some_iff.mp hmove
      exact h.acts hholder hact hquiet.left hsafe
    · cases hmove
  | leavesLock =>
    have hkept := hmove
    simp only [GatewayWorld.move] at hmove
    split at hmove
    · rename_i hholder
      exact h.leavesLock hholder hkept
    · rename_i hholder
      exact h.leavesLock hholder hkept
    · cases hmove

theorem GatewayInv.step (h : GatewayInv world) (hstep : GatewayStep world after)
    (hquiet : QuietOnceIdle world after) (hsafe : ManagerSafe after.manager) :
    GatewayInv after := by
  cases hstep with
  | move move moved => exact h.move moved hquiet hsafe
  | supervisor step =>
    exact ⟨h.serving, h.reloading, h.joined, fun hleft =>
      step.counterAct.stays_zero (h.idle hleft) (hquiet.left hleft) hsafe⟩

theorem gatewayInv_start (serverEnabled exitWhenIdle : Bool) (manager : GwChannelManager) :
    GatewayInv (gatewayWorldOf serverEnabled exitWhenIdle manager) :=
  ⟨fun _ hheld => (by cases hheld), fun _ hheld => (by cases hheld), fun hwaits => (by cases hwaits),
    fun hleft => by cases hleft⟩

end Invariant

/-! ## Runs -/

/-- A run of the program each of whose steps is quiet. -/
abbrev QuietRun : GatewayWorld → GatewayWorld → Prop :=
  Relation.ReflTransGen fun before after => GatewayStep before after ∧ QuietOnceIdle before after

section Runs

variable {answers : CreateAnswers} {config : GwConfig} {options : GwSupervisorOptions}
  {created manager : GwChannelManager} {serverEnabled exitWhenIdle : Bool}
  {world after : GatewayWorld}

theorem gateway_reaches
    (hstarted : Monitor.Reaches (managerSetting True fun _ => True) Calls created
      ⟨manager, [], none⟩)
    (hrun : Relation.ReflTransGen GatewayStep (gatewayWorldOf serverEnabled exitWhenIdle manager)
      world) :
    Monitor.Reaches (managerSetting True fun _ => True) Calls created world.monitor := by
  induction hrun with
  | refl => exact hstarted
  | tail _ hstep ih => exact ih.steps hstep.monitor

theorem QuietRun.run (h : QuietRun world after) : Relation.ReflTransGen GatewayStep world after :=
  Relation.ReflTransGen.mono (fun _ _ hstep => hstep.1) _ _ h

theorem gatewayInv_of_quiet
    (hcreate : gwChannelManagerCreate answers config options = .ok created)
    (hstarted : Monitor.Reaches (managerSetting True fun _ => True) Calls created
      ⟨manager, [], none⟩)
    (hrun : QuietRun (gatewayWorldOf serverEnabled exitWhenIdle manager) world) :
    GatewayInv world := by
  induction hrun with
  | refl => exact gatewayInv_start serverEnabled exitWhenIdle manager
  | tail hbefore hstep ih =>
    have hreach := gateway_reaches hstarted ((QuietRun.run hbefore).tail hstep.1)
    exact ih.step hstep.1 hstep.2 (managerSafe_of_reaches hcreate hreach)

/-- Without a count no thread is live. -/
theorem ManagerSafe.no_live (h : ManagerSafe manager) (hzero : manager.activeThreads = 0)
    (slot : Fin gwMaxChannels) {thread : SupervisorThread}
    (hthread : thread ∈ (manager.entries slot).supervisors) : thread.counted = false := by
  rw [h.activeThreads] at hzero
  have hslot := (Finset.sum_eq_zero_iff.mp hzero) slot (Finset.mem_univ slot)
  have hnot := List.countP_eq_zero.mp hslot thread hthread
  exact Bool.eq_false_iff.mpr hnot

theorem SupervisorThread.not_live_of_not_counted {thread : SupervisorThread}
    (h : thread.counted = false) : thread.live = false := by
  cases hphase : thread.phase <;> simp_all [SupervisorThread.counted, SupervisorThread.live]

/-- A created thread that is not counted can be joined at once. -/
theorem GwChannelEntry.Owns.joins_at_once {entry : GwChannelEntry} (h : entry.Owns)
    (hnone : ∀ thread ∈ entry.supervisors, thread.counted = false) : entry.join.isSome := by
  obtain ⟨front, last, hends, hthread, hcreated, -⟩ := h
  have hlast : last ∈ entry.supervisors := List.mem_of_getElem? hends.last_found
  have hfinished : last.phase = .finished := by
    have hcounted := hnone last hlast
    cases hphase : last.phase <;>
      simp_all [SupervisorThread.counted, SupervisorThread.created]
  simp [GwChannelEntry.join, hthread, hends.last_found, hfinished]

/-- In every run in which the count is zero as the main thread leaves an idle loop, and no
thread is announced from then on: when it reaches the wait and no stop was requested, no
supervisor is live, and the wait joins each of them at once. -/
theorem idle_exit
    (hcreate : gwChannelManagerCreate answers config options = .ok created)
    (hstarted : Monitor.Reaches (managerSetting True fun _ => True) Calls created
      ⟨manager, [], none⟩)
    (hrun : QuietRun (gatewayWorldOf serverEnabled exitWhenIdle manager) world)
    (hwaits : world.main = .waits) (hstop : world.requestedStop = 0) :
    (∀ slot, ∀ thread ∈ (world.manager.entries slot).supervisors, thread.live = false) ∧
      ∀ slot, (world.manager.entries slot).threadStarted = true →
        (world.manager.entries slot).join.isSome := by
  have hinv := gatewayInv_of_quiet hcreate hstarted hrun
  have hreach := gateway_reaches hstarted hrun.run
  have hsafe : ManagerSafe world.manager := managerSafe_of_reaches hcreate hreach
  have hleft : world.leftOnIdle = true := by
    rw [GatewayWorld.leftOnIdle, hwaits, hstop]
    rfl
  have hnone : ∀ slot, ∀ thread ∈ (world.manager.entries slot).supervisors,
      thread.counted = false := fun slot thread => hsafe.no_live (hinv.idle hleft) slot
  have hfree : world.holder = none := by
    cases hholder : world.holder with
    | none => rfl
    | some held =>
      obtain ⟨holder, body⟩ := held
      cases holder with
      | main =>
        have hphase := hinv.reloading body hholder
        rw [hwaits] at hphase
        cases hphase
      | server =>
        have hserving := (hinv.serving body hholder).1
        rw [hinv.joined hwaits] at hserving
        cases hserving
  refine ⟨fun slot thread hthread =>
    SupervisorThread.not_live_of_not_counted (hnone slot thread hthread), fun slot hthread => ?_⟩
  have hfreeMonitor : world.monitor.inside = none := by
    rw [GatewayWorld.monitor, hfree]
    rfl
  obtain ⟨view, ⟨stages, hresting⟩, -⟩ := (managerInv_of_reaches hcreate hreach).free hfreeMonitor
  have hslot : SlotOk (stages slot) (world.manager.entries slot) := hresting.assertion.slots slot
  rcases hresting.rest slot with hstage | hstage
  · rw [hstage] at hslot
    rw [hslot.1] at hthread
    cases hthread
  · rw [hstage] at hslot
    exact hslot.2.2.joins_at_once (hnone slot)

/-! ### Runs of moves -/

/-- Some moves, one after the other. -/
def GatewayWorld.moves (world : GatewayWorld) : List GatewayMove → Option GatewayWorld
  | [] => some world
  | move :: rest => (world.move move).bind fun after => after.moves rest

/-- The first thread of the first slot ends. -/
def GatewayWorld.endThread (world : GatewayWorld) : GatewayWorld :=
  { world with manager := world.manager.endThread firstSlot 0 }

/-- The first thread of the first slot is running. -/
def GatewayWorld.runsFirst (world : GatewayWorld) : Bool :=
  (world.manager.entries firstSlot).supervisors[0]?.any fun thread => thread.phase == .supervising

/-- The main thread is at the wait. -/
def MainPhase.isWaits : MainPhase → Bool
  | .waits => true
  | _ => false

theorem run_of_moves {moves : List GatewayMove} (h : world.moves moves = some after) :
    Relation.ReflTransGen GatewayStep world after := by
  induction moves generalizing world with
  | nil => exact Option.some.inj h ▸ .refl
  | cons move rest ih =>
    obtain ⟨next, hmove, hrest⟩ := Option.bind_eq_some_iff.mp h
    exact (ih hrest).head (.move move hmove)

/-- Only the holder's acts announce threads, or change their count. -/
theorem same_threads_of_move {move : GatewayMove} (h : world.move move = some after)
    (hmove : ∀ answer, move ≠ .acts answer) :
    after.manager.entries = world.manager.entries ∧
      after.manager.activeThreads = world.manager.activeThreads := by
  unfold GatewayWorld.move at h
  cases move with
  | acts answer => exact absurd rfl (hmove answer)
  | reads signals candidate =>
    dsimp only at h
    split at h
    · rw [← Option.some.inj h]
      unfold GatewayWorld.reads
      dsimp only
      split
      · exact ⟨rfl, rfl⟩
      · split
        · cases candidate <;> exact ⟨rfl, rfl⟩
        · split <;> exact ⟨rfl, rfl⟩
    · cases h
  | checks | entersReload | stopsServer | joinsServer | polls failed | requests command
  | entersCommand | leavesLock =>
    dsimp only at h
    split at h <;> cases h <;> exact ⟨rfl, rfl⟩

theorem quietRun_of_moves {moves : List GatewayMove} (h : world.moves moves = some after)
    (hzero : world.manager.activeThreads = 0)
    (hmoves : ∀ move ∈ moves, ∀ answer, move ≠ .acts answer) : QuietRun world after := by
  induction moves generalizing world with
  | nil => exact Option.some.inj h ▸ .refl
  | cons move rest ih =>
    obtain ⟨next, hmove, hrest⟩ := Option.bind_eq_some_iff.mp h
    obtain ⟨hentries, hcount⟩ := same_threads_of_move hmove (hmoves move List.mem_cons_self)
    refine (ih hrest (hcount.trans hzero) fun other hother =>
      hmoves other (List.mem_cons_of_mem _ hother)).head ⟨.move move hmove, fun _ _ => hzero, ?_⟩
    rintro - ⟨slot, hlonger⟩
    rw [hentries] at hlonger
    exact lt_irrefl _ hlonger

/-- The supervisors run on while the main thread does not leave. -/
theorem quietRun_of_later (hmain : world.leftOnIdle = false)
    (h : (managerSetting False fun _ => True).Later world.manager manager) :
    QuietRun world { world with manager := manager } := by
  induction h with
  | refl => exact .refl
  | @tail before next _ hstep ih =>
    have hone : GatewayStep { world with manager := before } { world with manager := next } :=
      @GatewayStep.supervisor { world with manager := before } next hstep
    have hsame : ∀ manager, GatewayWorld.leftOnIdle { world with manager := manager } = false :=
      fun _ => hmain
    refine ih.tail ⟨hone, fun _ hleft => ?_, fun hleft => ?_⟩
    · rw [hsame] at hleft
      cases hleft
    · rw [hsame] at hleft
      cases hleft

theorem quietRun_endThread (hmain : world.leftOnIdle = false) (hruns : world.runsFirst = true) :
    QuietRun world world.endThread := by
  unfold GatewayWorld.runsFirst at hruns
  cases hfound : (world.manager.entries firstSlot).supervisors[0]? with
  | none =>
    rw [hfound] at hruns
    cases hruns
  | some thread =>
    rw [hfound] at hruns
    exact quietRun_of_later hmain (later_endThread hfound (beq_iff_eq.mp hruns))

/-- No signal. -/
def noSignals : ControlSignals := ⟨none, false, false⟩

/-- The only supervisor ends, and the main thread leaves. -/
def leftIdle : Option GatewayWorld :=
  freshManager.bind fun manager =>
    (gatewayWorldOf true true manager).endThread.moves
      [.checks, .reads noSignals none, .stopsServer, .polls false, .joinsServer]

theorem idle_exit_left :
    (leftIdle.map fun world => (world.main.isWaits, world.requestedStop)) = some (true, 0) ∧
      ∀ world, leftIdle = some world → world.main = .waits → world.requestedStop = 0 →
        (∀ slot, ∀ thread ∈ (world.manager.entries slot).supervisors, thread.live = false) ∧
          ∀ slot, (world.manager.entries slot).threadStarted = true →
            (world.manager.entries slot).join.isSome := by
  refine ⟨by decide +kernel, fun world h hwaits hstop => ?_⟩
  obtain ⟨manager, hfresh, hmoves⟩ := Option.bind_eq_some_iff.mp h
  obtain ⟨created, hcreated, hstart⟩ := run_fresh hfresh
  have hruns : freshManager.map (fun manager => (gatewayWorldOf true true manager).runsFirst) =
      some true := by decide +kernel
  rw [hfresh, Option.map_some, Option.some.injEq] at hruns
  have hended : QuietRun (gatewayWorldOf true true manager)
      (gatewayWorldOf true true manager).endThread := quietRun_endThread rfl hruns
  have hzero : freshManager.map (fun manager =>
      (gatewayWorldOf true true manager).endThread.manager.activeThreads) = some 0 := by
    decide +kernel
  rw [hfresh, Option.map_some, Option.some.injEq] at hzero
  have hquiet := hended.trans (quietRun_of_moves hmoves hzero (by simp))
  exact idle_exit hcreated (Monitor.Reaches.start.runs hstart) hquiet hwaits hstop

/-- A command to restart the first channel. -/
def restartFront : ChannelCommand := ⟨.restart, ascii "front", by decide⟩

/-- The restart waits for the supervisor. -/
def joiningRestart (manager : GwChannelManager) : Option GatewayWorld :=
  (gatewayWorldOf true true manager).moves
    ([.polls false, .requests restartFront, .entersCommand] ++ List.replicate 5 (.acts none))

/-- It joins the supervisor, the main thread reads the count and leaves, and it goes on. -/
def GatewayWorld.stranded (joining : GatewayWorld) : Option GatewayWorld :=
  joining.endThread.moves
    (List.replicate 2 (.acts none) ++ [.checks, .reads noSignals none] ++
      List.replicate 6 (.acts none) ++ [.leavesLock, .stopsServer, .polls false, .joinsServer])

theorem isWaits_iff {phase : MainPhase} (h : phase.isWaits = true) : phase = .waits := by
  cases phase <;> first | rfl | cases h

/-- The main thread reaches the wait with a supervisor running and no stop requested. -/
theorem idle_exit_counterexample :
    ∃ created manager world, createdManager = .ok created ∧
      Monitor.Reaches (managerSetting True fun _ => True) Calls created ⟨manager, [], none⟩ ∧
      Relation.ReflTransGen GatewayStep (gatewayWorldOf true true manager) world ∧
      world.main = .waits ∧ world.requestedStop = 0 ∧
      ∃ thread ∈ (world.manager.entries firstSlot).supervisors, thread.phase = .supervising := by
  have hreport : (freshManager.bind fun manager => (joiningRestart manager).bind fun joining =>
      joining.stranded.map fun world =>
        ((joining.leftOnIdle, joining.runsFirst), (world.main.isWaits, world.requestedStop),
          (world.manager.entries firstSlot).supervisors.any fun thread =>
            thread.phase == .supervising)) =
        some ((false, true), (true, 0), true) := by decide +kernel
  obtain ⟨manager, hfresh, hreport⟩ := Option.bind_eq_some_iff.mp hreport
  obtain ⟨joining, hjoining, hreport⟩ := Option.bind_eq_some_iff.mp hreport
  obtain ⟨world, hstranded, hreport⟩ := Option.map_eq_some_iff.mp hreport
  simp only [Prod.mk.injEq] at hreport
  obtain ⟨⟨hmain, hruns⟩, ⟨hwaits, hstop⟩, hany⟩ := hreport
  obtain ⟨created, hcreated, hstart⟩ := run_fresh hfresh
  obtain ⟨thread, hthread, hphase⟩ := List.any_eq_true.mp hany
  refine ⟨created, manager, world, hcreated, Monitor.Reaches.start.runs hstart, ?_,
    isWaits_iff hwaits, hstop, thread, hthread, beq_iff_eq.mp hphase⟩
  exact ((run_of_moves hjoining).trans (quietRun_endThread hmain hruns).run).trans
    (run_of_moves hstranded)

end Runs

end LearnApue.Gateway
