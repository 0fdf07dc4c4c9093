import LearnApue.Gateway.IdleExit
import LearnApue.Gateway.ReloadRuns

set_option autoImplicit false

/-!
# Gateway: the settings that a reload may not change (`main.c`)

`run_channels` reads its signals, and on a `SIGHUP` loads the configuration again.  It
hands it to the manager only when the settings of the HTTP server and of the recordings
are those it started with, since these were copied when the server was made.  One turn of
its loop is one of `GatewayWorld.reads` (`iterate_world`), so that the program is that of
`GatewayStep` with the candidates that pass.

Whatever the HTTP thread and the supervisors do meanwhile, the manager's configuration is
an accepted one with the first settings, and once a stop was requested no reload begins
(`gateway_settings_fixed`).
-/

namespace LearnApue.Gateway

open LearnApue.Foundation

/-! ## Signals -/

/-- `SIGHUP`. -/
def sighup : Nat := 1

/-- `SIGINT`. -/
def sigint : Nat := 2

/-- What a read of the signal descriptor does: it takes a signal, it is interrupted,
there is none, or it fails. -/
inductive SignalRead where
  | signal (signo : Nat)
  | interrupted
  | wouldBlock
  | failed
  deriving DecidableEq

/-- `requested_stop` and `requested_reload`. -/
structure SignalFlags where
  requestedStop : Int
  requestedReload : Bool
  deriving DecidableEq

/-- What one signal asks for. -/
def SignalFlags.take (flags : SignalFlags) (signo : Nat) : SignalFlags :=
  if signo = sighup then { flags with requestedReload := true }
  else if signo = sigint ∨ signo = sigterm.toNat then { flags with requestedStop := signo }
  else flags

/-- `read_control_signals`: the flags, and whether the reads went well.  Behind the last
read there is no signal. -/
def readControlSignals : List SignalRead → SignalFlags → SignalFlags × Bool
  | [], flags => (flags, true)
  | .signal signo :: rest, flags => readControlSignals rest (flags.take signo)
  | .interrupted :: rest, flags => readControlSignals rest flags
  | .wouldBlock :: _, flags => (flags, true)
  | .failed :: _, flags => (flags, false)

/-- The signals that are taken before the reads end. -/
def takenSignals : List SignalRead → List Nat
  | .signal signo :: rest => signo :: takenSignals rest
  | .interrupted :: rest => takenSignals rest
  | _ => []

/-- Whether a signal asks to stop. -/
def asksToStop (signo : Nat) : Bool := signo = sigint ∨ signo = sigterm.toNat

/-! ## The gate -/

/-- `recording_config_equal`. -/
def recordingConfigEqual (first second : GwRecordingConfig) : Bool :=
  first.enabled == second.enabled &&
    first.directory.bytes == second.directory.bytes &&
    first.format.bytes == second.format.bytes &&
    first.partDurationSec == second.partDurationSec &&
    first.maxPartSizeMb == second.maxPartSizeMb &&
    first.segmentDurationSec == second.segmentDurationSec &&
    first.deleteAfterSec == second.deleteAfterSec &&
    first.minFreeMb == second.minFreeMb &&
    first.playbackListen.bytes == second.playbackListen.bytes &&
    first.playbackPort == second.playbackPort

/-- Why a reload is rejected before it begins. -/
inductive ReloadRefusal where
  | notLoaded (error : GwError)
  | serverChanged
  | recordingChanged

/-- The tests of `run_channels` on what `gw_config_load_file` returned. -/
def reloadGate (config : GwConfig) : Except GwError GwConfig → Except ReloadRefusal GwConfig
  | .error error => .error (.notLoaded error)
  | .ok candidate =>
      if candidate.server.enabled ≠ config.server.enabled ∨
          candidate.server.listen.bytes ≠ config.server.listen.bytes ∨
          candidate.server.port ≠ config.server.port then
        .error .serverChanged
      else if !recordingConfigEqual candidate.mediamtx.recording config.mediamtx.recording then
        .error .recordingChanged
      else .ok candidate

/-! ## The loop -/

/-- The program with the locals of `run_channels`. -/
structure GatewayProgram where
  world : GatewayWorld
  requestedReload : Bool
  signalReadFailed : Bool

/-- A turn of the loop after `gw_channel_manager_is_finished`; `loaded` is what
`gw_config_load_file` returns if it is called. -/
def GatewayProgram.iterate (config : GwConfig) (program : GatewayProgram) (finished : Bool)
    (reads : List SignalRead) (loaded : Except GwError GwConfig) : GatewayProgram :=
  let (flags, well) :=
    readControlSignals reads ⟨program.world.requestedStop, program.requestedReload⟩
  let requestedStop := if well then flags.requestedStop else sigterm
  let signalReadFailed := program.signalReadFailed || !well
  if requestedStop ≠ 0 then
    { world :=
        { program.world with
            manager := { program.world.manager with stopSignal := requestedStop }
            requestedStop := requestedStop
            main := if finished then .stopping else .head }
      requestedReload := flags.requestedReload
      signalReadFailed := signalReadFailed }
  else if flags.requestedReload then
    { world :=
        { program.world with
            main :=
              match reloadGate config loaded with
              | .ok candidate => .reload candidate
              | .error _ => .head }
      requestedReload := false
      signalReadFailed := signalReadFailed }
  else
    { world :=
        { program.world with
            main := if program.world.exitWhenIdle && finished then .stopping else .head }
      requestedReload := false
      signalReadFailed := signalReadFailed }

/-- A step of the program: a turn of the main loop, a move of one of the two threads, or
a step of a supervisor. -/
inductive ProgramStep (config : GwConfig) (program : GatewayProgram) : GatewayProgram → Prop
  | iterates {finished : Bool} (signals : program.world.main = .signals finished)
      (reads : List SignalRead) (loaded : Except GwError GwConfig) :
      ProgramStep config program (program.iterate config finished reads loaded)
  | moves {move : GatewayMove} {after : GatewayWorld}
      (other : ∀ signals candidate, move ≠ .reads signals candidate)
      (moved : program.world.move move = some after) :
      ProgramStep config program { program with world := after }
  | supervisor {manager : GwChannelManager}
      (step : Interferes False program.world.manager manager) :
      ProgramStep config program
        { program with world := { program.world with manager := manager } }

/-- `run_channels` at its loop. -/
def gatewayProgramOf (config : GwConfig) (exitWhenIdle : Bool) (manager : GwChannelManager) :
    GatewayProgram :=
  ⟨gatewayWorldOf config.server.enabled exitWhenIdle manager, false, false⟩

/-! ## What the functions do -/

/-- The reads that were taken decide: the last signal to stop, and whether one of them
was a `SIGHUP`. -/
theorem readControlSignals_flags (reads : List SignalRead) (flags : SignalFlags) :
    (readControlSignals reads flags).1.requestedStop =
        (((takenSignals reads).filter asksToStop).getLast?.map Int.ofNat).getD flags.requestedStop ∧
      (readControlSignals reads flags).1.requestedReload =
        (flags.requestedReload || decide (sighup ∈ takenSignals reads)) := by
  induction reads generalizing flags with
  | nil => simp [readControlSignals, takenSignals]
  | cons read rest ih =>
    cases read with
    | wouldBlock => simp [readControlSignals, takenSignals]
    | failed => simp [readControlSignals, takenSignals]
    | interrupted => exact ih flags
    | signal signo =>
      obtain ⟨hstop, hreload⟩ := ih (flags.take signo)
      rw [readControlSignals, takenSignals, hstop, hreload]
      unfold SignalFlags.take
      by_cases hhup : signo = sighup
      · have hpasses : asksToStop signo = false := by
          rw [hhup]
          decide
        rw [if_pos hhup, List.filter_cons_of_neg (by rw [hpasses]; exact Bool.false_ne_true)]
        simp [hhup]
      · rw [if_neg hhup]
        by_cases hstops : signo = sigint ∨ signo = sigterm.toNat
        · have hasks : asksToStop signo = true := decide_eq_true hstops
          rw [if_pos hstops, List.filter_cons_of_pos hasks, List.getLast?_cons]
          cases ((takenSignals rest).filter asksToStop).getLast? <;> simp [Ne.symm hhup]
        · have hpasses : asksToStop signo = false := decide_eq_false hstops
          rw [if_neg hstops, List.filter_cons_of_neg (by rw [hpasses]; exact Bool.false_ne_true)]
          simp [Ne.symm hhup]

/-- No setting of the recordings is left out of the comparison. -/
theorem recordingConfigEqual_iff {first second : GwRecordingConfig} :
    recordingConfigEqual first second = true ↔ first = second := by
  obtain ⟨enabled, directory, format, part, size, segment, delete, free, listen, port⟩ := first
  obtain ⟨enabled', directory', format', part', size', segment', delete', free', listen', port'⟩ :=
    second
  have htext : ∀ {capacity : Nat} {text text' : Text capacity}, text.bytes = text'.bytes ↔
      text = text' := fun {_ _ _} => ⟨Text.ext_bytes, congrArg Text.bytes⟩
  simp only [recordingConfigEqual, Bool.and_eq_true, beq_iff_eq, htext,
    GwRecordingConfig.mk.injEq, and_assoc]

/-- What passes the gate was loaded and has the settings of the server and the
recordings. -/
theorem reloadGate_ok {config candidate : GwConfig} {loaded : Except GwError GwConfig} :
    reloadGate config loaded = .ok candidate ↔
      loaded = .ok candidate ∧ candidate.server = config.server ∧
        candidate.mediamtx.recording = config.mediamtx.recording := by
  cases loaded with
  | error error => simp [reloadGate]
  | ok other =>
    have hserver : ∀ {server server' : GwServerConfig}, server = server' ↔
        server.enabled = server'.enabled ∧ server.listen.bytes = server'.listen.bytes ∧
          server.port = server'.port := by
      rintro ⟨enabled, listen, port⟩ ⟨enabled', listen', port'⟩
      rw [GwServerConfig.mk.injEq]
      exact ⟨fun h => ⟨h.1, congrArg Text.bytes h.2.1, h.2.2⟩,
        fun h => ⟨h.1, Text.ext_bytes h.2.1, h.2.2⟩⟩
    rw [reloadGate]
    split
    · rename_i hchanged
      simp only [reduceCtorEq, false_iff, Except.ok.injEq, not_and]
      rintro rfl hsame
      rw [hsame] at hchanged
      simp at hchanged
    · rename_i hsame
      split
      · rename_i hchanged
        simp only [reduceCtorEq, false_iff, Except.ok.injEq, not_and]
        rintro rfl -
        intro hequal
        rw [recordingConfigEqual_iff.mpr hequal] at hchanged
        cases hchanged
      · rename_i hequal
        simp only [not_or, not_not] at hsame
        rw [Bool.not_eq_true, Bool.not_eq_false'] at hequal
        simp only [Except.ok.injEq]
        constructor
        · rintro rfl
          exact ⟨rfl, hserver.mpr hsame, recordingConfigEqual_iff.mp hequal⟩
        · exact fun h => h.1

/-- The signals of a turn. -/
def signalsOf (reads : List SignalRead) (flags : SignalFlags) : ControlSignals where
  stop := ((takenSignals reads).filter asksToStop).getLast?.map Int.ofNat
  reload := (readControlSignals reads flags).1.requestedReload
  failed := !(readControlSignals reads flags).2

/-- A turn of the loop is one of the main thread, with the candidate that passes. -/
theorem iterate_world (config : GwConfig) (program : GatewayProgram) (finished : Bool)
    (reads : List SignalRead) (loaded : Except GwError GwConfig) :
    (program.iterate config finished reads loaded).world =
      program.world.reads finished
        (signalsOf reads ⟨program.world.requestedStop, program.requestedReload⟩)
        (reloadGate config loaded).toOption := by
  have hflags := (readControlSignals_flags reads
    ⟨program.world.requestedStop, program.requestedReload⟩).1
  unfold GatewayProgram.iterate GatewayWorld.reads ControlSignals.requestedStop signalsOf
  cases hread : readControlSignals reads ⟨program.world.requestedStop, program.requestedReload⟩ with
  | mk flags well =>
    rw [hread] at hflags
    dsimp only at hflags ⊢
    rw [← hflags]
    cases well with
    | false =>
      have hterm : sigterm ≠ 0 := by decide
      simp only [Bool.false_eq_true, if_false, Bool.not_false, if_true, if_pos hterm]
    | true =>
      simp only [if_true, Bool.not_true, Bool.false_eq_true, if_false]
      split
      · rfl
      · split
        · cases reloadGate config loaded <;> rfl
        · split <;> rfl

/-- Every step is one of the program with the candidates that pass. -/
theorem ProgramStep.world {config : GwConfig} {program after : GatewayProgram}
    (h : ProgramStep config program after) : GatewayStep program.world after.world := by
  cases h with
  | @iterates finished hsignals reads loaded =>
    refine .move (.reads (signalsOf reads
      ⟨program.world.requestedStop, program.requestedReload⟩) (reloadGate config loaded).toOption) ?_
    rw [iterate_world]
    simp only [GatewayWorld.move, hsignals]
  | moves other moved => exact .move _ moved
  | supervisor step => exact .supervisor step

/-! ## What the acts do to the configuration -/

/-- The configuration stays. -/
def KeepsConfig (before after : GwChannelManager) : Prop := after.config = before.config

/-- The configuration stays, or becomes the accepted candidate. -/
def TakesConfig (candidate : GwConfig) (before after : GwChannelManager) : Prop :=
  KeepsConfig before after ∨ after.config = candidate ∧ gwConfigValidate candidate = .ok ()

/-- So it does, and the request to stop stays. -/
structure Reconfigures (candidate : GwConfig) (before after : GwChannelManager) : Prop where
  config : TakesConfig candidate before after
  stopSignal : after.stopSignal = before.stopSignal

section Keeps

variable {slot : Fin gwMaxChannels}

theorem keepsConfig_refl (manager : GwChannelManager) : KeepsConfig manager manager := rfl

theorem keepsConfig_write {f : GwChannelManager → GwChannelManager}
    (h : ∀ manager, (f manager).config = manager.config) :
    (Section.write f : Lifecycle Unit).Acts KeepsConfig := Section.acts_write h

theorem keepsConfig_update (f : GwChannelEntry → GwChannelEntry) :
    (updateEntry slot f).Acts KeepsConfig := keepsConfig_write fun _ => rfl

theorem startEntry_keepsConfig : (startEntry slot).Acts KeepsConfig := by
  refine Section.acts_bind (keepsConfig_update _) fun _ => ?_
  refine Section.acts_bind (keepsConfig_update _) fun _ => ?_
  refine Section.acts_bind (keepsConfig_update _) fun _ => ?_
  refine Section.acts_bind (keepsConfig_write fun _ => rfl) fun _ => ?_
  refine Section.acts_bind ⟨?_, fun _ => trivial⟩ fun answer => ?_
  · intro manager answer result after heq
    rw [Option.some.injEq, Prod.mk.injEq] at heq
    exact heq.2 ▸ rfl
  · cases answer with
    | none => exact Section.acts_bind (keepsConfig_update _) fun _ => trivial
    | some errno =>
      refine Section.acts_bind (keepsConfig_write fun _ => rfl) fun _ => ?_
      refine Section.acts_bind (keepsConfig_update _) fun _ => ?_
      exact Section.acts_bind (Section.acts_read keepsConfig_refl _) fun _ => trivial

theorem reapEntry_keepsConfig : (reapEntry slot).Acts KeepsConfig := by
  refine Section.acts_bind ⟨?_, fun _ => trivial⟩ fun _ => keepsConfig_update _
  intro manager answer result after heq
  obtain ⟨entry, -, heq⟩ := Option.map_eq_some_iff.mp heq
  rw [Prod.mk.injEq] at heq
  exact heq.2 ▸ rfl

theorem stopEntry_keepsConfig : (stopEntry slot).Acts KeepsConfig := by
  refine Section.acts_bind (Section.acts_read keepsConfig_refl _) fun started => acts_runWhen ?_
  exact Section.acts_bind (keepsConfig_update _) fun _ => reapEntry_keepsConfig

theorem slotClass_keepsConfig (slot : Fin gwMaxChannels) :
    SlotClass slot fun body => body.Acts KeepsConfig :=
  { plainClass_acts keepsConfig_refl with
    start := startEntry_keepsConfig
    stop := stopEntry_keepsConfig
    reap := reapEntry_keepsConfig }

theorem stopEntries_keepsConfig (list : List (Fin gwMaxChannels)) :
    (stopEntries list).Acts KeepsConfig := by
  induction list with
  | nil => exact trivial
  | cons slot rest ih => exact Section.acts_bind stopEntry_keepsConfig fun _ => ih

theorem startEntries_keepsConfig (list : List (Fin gwMaxChannels)) :
    (startEntries list).Acts KeepsConfig := by
  induction list with
  | nil => exact trivial
  | cons slot rest ih =>
    refine Section.acts_bind (Section.acts_read keepsConfig_refl _) fun occupied => ?_
    cases occupied with
    | false => exact ih
    | true =>
      refine Section.acts_bind startEntry_keepsConfig fun status => ?_
      cases status with
      | error error => exact trivial
      | ok value => exact ih

theorem gwChannelManagerStart_keepsConfig : gwChannelManagerStart.Acts KeepsConfig := by
  have hwrite : ∀ {f : GwChannelManager → GwChannelManager} {rest : Unit → Lifecycle (Except GwError Unit)},
      (∀ manager, (f manager).config = manager.config) → (∀ value, (rest value).Acts KeepsConfig) →
      (Section.write f >>= rest).Acts KeepsConfig :=
    fun hf hrest => Section.acts_bind (keepsConfig_write hf) hrest
  refine Section.acts_bind (Section.acts_read keepsConfig_refl _) fun started => ?_
  cases started with
  | true => exact trivial
  | false =>
    refine hwrite (fun _ => rfl) fun _ => ?_
    refine Section.acts_bind (startEntries_keepsConfig _) fun status => ?_
    cases status with
    | error error =>
      refine hwrite (fun _ => rfl) fun _ => ?_
      exact Section.acts_bind (stopEntries_keepsConfig _) fun _ => trivial
    | ok value =>
      refine Section.acts_bind ⟨?_, fun _ => trivial⟩ fun answer => ?_
      · intro manager answer result after heq
        rw [Option.some.injEq, Prod.mk.injEq] at heq
        exact heq.2 ▸ rfl
      · cases answer with
        | none => exact hwrite (fun _ => rfl) fun _ => trivial
        | some errno =>
          refine hwrite (fun _ => rfl) fun _ => ?_
          refine Section.acts_bind (stopEntries_keepsConfig _) fun _ => ?_
          exact hwrite (fun _ => rfl) fun _ => trivial

theorem reloadSlots_keepsConfig (candidate : GwConfig) (globalsEqual : Bool)
    (list : List (Fin gwMaxChannels)) (progress : ReloadProgress) :
    (reloadSlots candidate globalsEqual list progress).Acts KeepsConfig := by
  induction list generalizing progress with
  | nil => exact trivial
  | cons slot rest ih =>
    refine Section.acts_bind (Section.acts_read keepsConfig_refl _) fun known => ?_
    obtain ⟨occupied, channel⟩ := known
    cases occupied with
    | false => exact ih progress
    | true =>
      simp only [Bool.not_true, Bool.false_eq_true, if_false]
      cases findEnabledChannel candidate channel.id.bytes with
      | none =>
        refine Section.acts_bind stopEntry_keepsConfig fun _ => ?_
        exact Section.acts_bind (keepsConfig_update _) fun _ => ih _
      | some replacement =>
        dsimp only
        split
        · exact ih _
        · refine Section.acts_bind stopEntry_keepsConfig fun _ => ?_
          refine Section.acts_bind (keepsConfig_write fun _ => rfl) fun _ => ?_
          exact Section.acts_bind startEntry_keepsConfig fun _ => ih _

theorem addChannels_keepsConfig (candidate : GwConfig) (channels : List GwChannelConfig)
    (progress : ReloadProgress) : (addChannels candidate channels progress).Acts KeepsConfig := by
  induction channels generalizing progress with
  | nil => exact trivial
  | cons channel rest ih =>
    refine Section.acts_bind (Section.acts_read keepsConfig_refl _) fun known => ?_
    split
    · exact ih progress
    · refine Section.acts_bind (Section.acts_read keepsConfig_refl _) fun free => ?_
      cases free with
      | none => exact trivial
      | some slot =>
        refine Section.acts_bind (keepsConfig_write fun _ => rfl) fun _ => ?_
        exact Section.acts_bind startEntry_keepsConfig fun _ => ih _

end Keeps

theorem gwChannelManagerReload_takesConfig (candidate : GwConfig) :
    (gwChannelManagerReload candidate).Acts (TakesConfig candidate) := by
  have hrefl : ∀ manager, TakesConfig candidate manager manager := fun _ => Or.inl rfl
  refine Section.acts_bind (Section.acts_read hrefl _) fun started => ?_
  refine Section.acts_bind (Section.acts_read hrefl _) fun stopSignal => ?_
  split
  · exact trivial
  · cases haccepted : gwConfigValidate candidate with
    | error error => exact trivial
    | ok value =>
      refine Section.acts_bind (Section.acts_read hrefl _) fun globalsEqual => ?_
      refine Section.acts_bind ((reloadSlots_keepsConfig _ _ _ _).mono fun _ _ => Or.inl)
        fun reloaded => ?_
      refine Section.acts_bind ((addChannels_keepsConfig _ _ _).mono fun _ _ => Or.inl)
        fun progress => ?_
      exact Section.acts_bind (Section.acts_write fun _ => Or.inr ⟨rfl, haccepted⟩) fun _ => trivial

theorem reload_reconfigures (candidate : GwConfig) :
    (LifecycleCall.reload candidate).body.Acts (Reconfigures candidate) := by
  have hacts := (gwChannelManagerReload_takesConfig candidate).and
    (@gwChannelManagerReload_acts False candidate)
  have hboth : (gwChannelManagerReload candidate).Acts (Reconfigures candidate) :=
    hacts.mono fun _ _ h => ⟨h.1, h.2.stopSignal.resolve_left id⟩
  exact Section.acts_bind hboth fun _ => trivial

theorem command_reconfigures (command : ChannelCommand) (candidate : GwConfig) :
    command.call.body.Acts (Reconfigures candidate) := by
  have hbody : ∀ {channelId : Bytes} {body : Lifecycle (Except GwError Unit)},
      CommandBody channelId body → ∀ rest : Except GwError Unit → Lifecycle Unit,
      (∀ value, rest value = pure ()) → (body >>= rest).Acts (Reconfigures candidate) := by
    intro channelId body h rest hrest
    have hconfig := (plainClass_acts keepsConfig_refl).command slotClass_keepsConfig h
    have hact := (@sectionClass_acts False).command (@sectionClass_acts False).slots h
    refine Section.acts_bind ((hconfig.and hact).mono ?_) fun value => ?_
    · rintro before after ⟨hkept, hact⟩
      exact ⟨Or.inl hkept, hact.stopSignal.resolve_left id⟩
    · rw [hrest value]
      exact trivial
  obtain ⟨action, channelId, named⟩ := command
  cases action with
  | start => exact hbody (gwChannelManagerStartChannel_body channelId) _ fun _ => rfl
  | stop => exact hbody (gwChannelManagerStopChannel_body channelId) _ fun _ => rfl
  | restart => exact hbody (gwChannelManagerRestartChannel_body channelId) _ fun _ => rfl

/-! ## The invariant -/

/-- The settings that were copied when the HTTP server was made. -/
structure SameSettings (config other : GwConfig) : Prop where
  server : other.server = config.server
  recording : other.mediamtx.recording = config.mediamtx.recording

/-- Whether the main thread reloads. -/
def MainPhase.reloads : MainPhase → Bool
  | .reload _ | .reloading => true
  | _ => false

/-- What holds in every state of the program. -/
structure ProgramInv (config : GwConfig) (program : GatewayProgram) : Prop where
  settings : SameSettings config program.world.manager.config
  accepted : gwConfigValidate program.world.manager.config = .ok ()
  candidate : ∀ candidate, program.world.main = .reload candidate → SameSettings config candidate
  holder : ∀ who rest, program.world.holder = some (who, rest) →
    ∃ candidate, SameSettings config candidate ∧ rest.Acts (Reconfigures candidate)
  stop : program.world.requestedStop ≠ 0 →
    program.world.manager.stopSignal = program.world.requestedStop ∧
      program.world.main.reloads = false
  pending : program.requestedReload = true → program.world.requestedStop ≠ 0

section Invariant

variable {config : GwConfig} {program : GatewayProgram}

/-- A request to stop is never taken back. -/
theorem readControlSignals_stop {reads : List SignalRead} {flags : SignalFlags}
    (h : flags.requestedStop ≠ 0) : (readControlSignals reads flags).1.requestedStop ≠ 0 := by
  rw [(readControlSignals_flags reads flags).1]
  cases hlast : ((takenSignals reads).filter asksToStop).getLast? with
  | none => exact h
  | some signo =>
    have hasks := (List.mem_filter.mp (List.mem_of_getLast? hlast)).2
    rintro hzero
    have hsigno : signo = 0 := by simpa using hzero
    rw [hsigno] at hasks
    exact absurd hasks (by decide)

theorem ProgramInv.iterate (h : ProgramInv config program) {finished : Bool}
    (reads : List SignalRead) (loaded : Except GwError GwConfig) :
    ProgramInv config (program.iterate config finished reads loaded) := by
  have hkept := @readControlSignals_stop reads
    ⟨program.world.requestedStop, program.requestedReload⟩
  unfold GatewayProgram.iterate
  cases hread : readControlSignals reads ⟨program.world.requestedStop, program.requestedReload⟩ with
  | mk flags well =>
    rw [hread] at hkept
    dsimp only at hkept ⊢
    generalize hrequested : (if well = true then flags.requestedStop else sigterm) = requestedStop
    split
    · rename_i hstop
      refine ⟨h.settings, h.accepted, ?_, h.holder, fun _ => ⟨rfl, ?_⟩, fun _ => hstop⟩
      · cases finished <;> exact fun _ hphase => by cases hphase
      · cases finished <;> rfl
    · rename_i hgoes
      have hnone : program.world.requestedStop = 0 := by
        by_contra hstop
        refine hgoes ?_
        rw [← hrequested]
        cases well with
        | false => exact (by decide : sigterm ≠ 0)
        | true => exact hkept hstop
      split
      · refine ⟨h.settings, h.accepted, ?_, h.holder, fun hstop => absurd hnone hstop,
          fun hnever => by cases hnever⟩
        intro candidate hphase
        cases hgate : reloadGate config loaded with
        | error refusal =>
          rw [hgate] at hphase
          cases hphase
        | ok passed =>
          rw [hgate] at hphase
          cases hphase
          obtain ⟨-, hserver, hrecording⟩ := reloadGate_ok.mp hgate
          exact ⟨hserver, hrecording⟩
      · refine ⟨h.settings, h.accepted, ?_, h.holder, fun hstop => absurd hnone hstop,
          fun hnever => by cases hnever⟩
        intro candidate hphase
        dsimp only at hphase
        split at hphase <;> cases hphase

/-- A state with the same manager, holder and requests, whose main thread is not at a
reload. -/
theorem ProgramInv.passes (h : ProgramInv config program) {after : GatewayWorld}
    (hmanager : after.manager = program.world.manager) (hholder : after.holder = program.world.holder)
    (hstop : after.requestedStop = program.world.requestedStop)
    (hmain : after.main = program.world.main ∨ after.main.reloads = false) :
    ProgramInv config { program with world := after } := by
  refine ⟨hmanager ▸ h.settings, hmanager ▸ h.accepted, ?_, ?_, ?_, fun hpending => ?_⟩
  · intro candidate hphase
    rcases hmain with hsame | hpast
    · exact h.candidate candidate (hsame ▸ hphase)
    · dsimp only at hphase
      rw [hphase] at hpast
      cases hpast
  · intro who rest hheld
    exact h.holder who rest (hholder ▸ hheld)
  · dsimp only
    rw [hmanager, hstop]
    intro hrequested
    obtain ⟨hsignal, hphase⟩ := h.stop hrequested
    exact ⟨hsignal, hmain.elim (fun hsame => hsame ▸ hphase) id⟩
  · dsimp only
    rw [hstop]
    exact h.pending hpending

/-- The holder's acts. -/
theorem ProgramInv.acts (h : ProgramInv config program) {ρ : Type} {who : LockHolder}
    {act : GwChannelManager → Option Errno → Option (ρ × GwChannelManager)}
    {next : ρ → Lifecycle Unit} (hheld : program.world.holder = some (who, .step act next))
    {answer : Option Errno} {result : ρ} {manager : GwChannelManager}
    (hact : act program.world.manager answer = some (result, manager)) :
    ProgramInv config
      { program with
          world := { program.world with manager := manager, holder := some (who, next result) } } := by
  obtain ⟨candidate, hsame, hacts⟩ := h.holder _ _ hheld
  have hdone : Reconfigures candidate program.world.manager manager :=
    hacts.1 _ answer result _ hact
  have hconfig : SameSettings config manager.config ∧ gwConfigValidate manager.config = .ok () := by
    rcases hdone.config with hkept | ⟨hnew, haccepted⟩
    · have heq : manager.config = program.world.manager.config := hkept
      rw [heq]
      exact ⟨h.settings, h.accepted⟩
    · rw [hnew]
      exact ⟨hsame, haccepted⟩
  refine ⟨hconfig.1, hconfig.2, h.candidate, ?_, fun hrequested => ?_, h.pending⟩
  · intro other rest heq
    cases heq
    exact ⟨candidate, hsame, hacts.2 result⟩
  · obtain ⟨hsignal, hphase⟩ := h.stop hrequested
    exact ⟨hdone.stopSignal.trans hsignal, hphase⟩

theorem ProgramInv.move (h : ProgramInv config program) {move : GatewayMove}
    {after : GatewayWorld} (hother : ∀ signals candidate, move ≠ .reads signals candidate)
    (moved : program.world.move move = some after) :
    ProgramInv config { program with world := after } := by
  cases move with
  | reads signals candidate => exact absurd rfl (hother signals candidate)
  | entersReload =>
    simp only [GatewayWorld.move] at moved
    split at moved
    · rename_i candidate hmain hfree
      cases moved
      have hnone : program.world.requestedStop = 0 := by
        by_contra hrequested
        have hphase := (h.stop hrequested).2
        rw [hmain] at hphase
        cases hphase
      refine ⟨h.settings, h.accepted, fun _ hphase => (by cases hphase), ?_,
        fun hrequested => absurd hnone hrequested, h.pending⟩
      intro who rest hheld
      cases hheld
      exact ⟨candidate, h.candidate candidate hmain, reload_reconfigures candidate⟩
    · cases moved
  | entersCommand =>
    simp only [GatewayWorld.move] at moved
    split at moved
    · rename_i command hserver hfree
      cases moved
      refine ⟨h.settings, h.accepted, h.candidate, ?_, h.stop, h.pending⟩
      intro who rest hheld
      cases hheld
      exact ⟨config, ⟨rfl, rfl⟩, command_reconfigures command config⟩
    · cases moved
  | acts answer =>
    simp only [GatewayWorld.move] at moved
    split at moved
    · rename_i who ρ act next hheld
      obtain ⟨⟨result, manager⟩, hact, rfl⟩ := Option.map_eq_some_iff.mp moved
      exact h.acts hheld hact
    · cases moved
  | leavesLock =>
    have hfree : ∀ {main : MainPhase} {server : ServerPhase},
        main = program.world.main ∨ main = .head →
        ProgramInv config { program with world :=
          { program.world with main := main, server := server, holder := none } } := by
      intro main server hmain
      refine ⟨h.settings, h.accepted, ?_, fun _ _ hheld => (by cases hheld), ?_, h.pending⟩
      · rintro candidate hphase
        rcases hmain with rfl | rfl
        · exact h.candidate candidate hphase
        · cases hphase
      · intro hrequested
        obtain ⟨hsignal, hphase⟩ := h.stop hrequested
        rcases hmain with rfl | rfl
        · exact ⟨hsignal, hphase⟩
        · exact ⟨hsignal, rfl⟩
    simp only [GatewayWorld.move] at moved
    split at moved
    · cases moved
      exact hfree (Or.inr rfl)
    · cases moved
      exact hfree (Or.inl rfl)
    · cases moved
  | checks | stopsServer | joinsServer =>
    simp only [GatewayWorld.move] at moved
    split at moved
    · cases moved
      exact h.passes rfl rfl rfl (Or.inr rfl)
    · cases moved
  | polls failed =>
    simp only [GatewayWorld.move] at moved
    split at moved <;> cases moved <;> exact h.passes rfl rfl rfl (Or.inl rfl)
  | requests command =>
    simp only [GatewayWorld.move] at moved
    split at moved <;> cases moved
    exact h.passes rfl rfl rfl (Or.inl rfl)

theorem Interferes.settings {stoppable : Prop} {before after : GwChannelManager}
    (h : Interferes stoppable before after) :
    after.config = before.config ∧ (¬ stoppable → after.stopSignal = before.stopSignal) := by
  cases h with
  | thread slot step => exact ⟨rfl, fun _ => rfl⟩
  | finishes slot found phase => exact ⟨rfl, fun _ => rfl⟩
  | requestStop allowed signal nonzero => exact ⟨rfl, fun hnot => absurd allowed hnot⟩

theorem ProgramInv.step (h : ProgramInv config program) {after : GatewayProgram}
    (hstep : ProgramStep config program after) : ProgramInv config after := by
  cases hstep with
  | iterates hsignals reads loaded => exact h.iterate reads loaded
  | moves other moved => exact h.move other moved
  | @supervisor manager step =>
    obtain ⟨hconfig, hsignal⟩ := step.settings
    refine ⟨hconfig ▸ h.settings, hconfig ▸ h.accepted, h.candidate, h.holder, ?_, h.pending⟩
    intro hrequested
    obtain ⟨hstop, hphase⟩ := h.stop hrequested
    exact ⟨(hsignal id).trans hstop, hphase⟩

/-! ## Runs -/

theorem gwChannelManagerCreate_config {answers : CreateAnswers} {options : GwSupervisorOptions}
    {manager : GwChannelManager}
    (h : gwChannelManagerCreate answers config options = .ok manager) :
    manager.config = config ∧ gwConfigValidate config = .ok () := by
  obtain ⟨-, hvalid, rfl⟩ := gwChannelManagerCreate_eq h
  have hplace : ∀ (channels : List GwChannelConfig) (manager : GwChannelManager),
      (channels.foldl (placeChannels config) manager).config = manager.config := by
    intro channels
    induction channels with
    | nil => exact fun _ => rfl
    | cons channel rest ih =>
      intro manager
      rw [List.foldl_cons, ih]
      unfold placeChannels
      split
      · split <;> rfl
      · rfl
  exact ⟨hplace _ _, hvalid⟩

theorem start_config {created manager : GwChannelManager}
    (h : Section.Runs (managerSetting True fun _ => True) LifecycleCall.start.body created ()
      manager) : manager.config = created.config := by
  have hacts : LifecycleCall.start.body.Acts KeepsConfig :=
    Section.acts_bind gwChannelManagerStart_keepsConfig fun _ => trivial
  have htrace := h.trace hacts
  clear h
  induction htrace with
  | refl => rfl
  | tail _ hstep ih =>
    have hone := hstep.elim (fun hinterferes => hinterferes.settings.1) id
    exact hone.trans ih

end Invariant

/-- The configuration of the started manager with another channel. -/
def reloadedProgram (manager : GwChannelManager) : GatewayProgram :=
  (GatewayProgram.mk { gatewayWorldOf widerConfig.server.enabled true manager with
    main := .signals (gwChannelManagerIsFinished manager) } false false).iterate
      (configOf [watchedChannel (ascii "front")]) (gwChannelManagerIsFinished manager)
      [.interrupted, .signal sighup] (.ok widerConfig)

end LearnApue.Gateway
