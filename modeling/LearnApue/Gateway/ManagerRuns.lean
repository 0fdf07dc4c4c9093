import LearnApue.Gateway.Reload

set_option autoImplicit false

/-!
# Gateway: runs of the channel manager

`ManagerReaches` are the states between two sections, after any sequence of calls
among the supervisor threads.  In each of them the manager rests, its slots run
enabled channels with the globals of its configuration, and no id runs twice.
-/

namespace LearnApue.Gateway

open LearnApue.Foundation

/-! ## Creation -/

section Create

variable {config : GwConfig} {options : GwSupervisorOptions}

/-- What is known of a manager that is being created. -/
structure Creating (config : GwConfig) (options : GwSupervisorOptions) (view : ManagerView)
    (manager : GwChannelManager) : Prop where
  assertion : At (fun _ => .free) view manager
  started : view.started = false
  configured : view.config = config
  placedFrom : PlacedFrom config view.placed
  distinct : DistinctIds view.placed
  stopSignal : manager.stopSignal = 0
  callerOptions : manager.callerOptions = options
  binary : ∀ slot, (manager.entries slot).occupied = true →
    (manager.entries slot).options.ffmpegBinary = options.ffmpegBinary

/-- A channel is placed. -/
theorem Creating.place {view : ManagerView} {manager : GwChannelManager}
    (h : Creating config options view manager) {channel : GwChannelConfig}
    (hmem : channel ∈ config.channels)
    (hnew : ∀ slot run, view.placed slot = some run → (runChannel run).id ≠ channel.id) :
    ∃ view', Creating config options view' (placeChannels config manager channel) ∧
      ∀ slot run, view'.placed slot = some run →
        view.placed slot = some run ∨ (runChannel run).id = channel.id := by
  unfold placeChannels
  by_cases henabled : channel.enabled = true
  · rw [if_pos henabled, h.assertion.findFreeEntry]
    cases hfree : freeSlot view.placed with
    | none => exact ⟨view, h, fun _ _ => Or.inl⟩
    | some slot =>
      obtain ⟨hfrom, hdistinct⟩ := @place_keeps config ⟨view.placed, ⟨0, 0, 0, 0⟩⟩ slot channel
        h.placedFrom h.distinct hmem henabled hnew
      have hat := @At.refill _ _ _ slot h.assertion rfl
        (configureEntry manager.callerOptions channel config (manager.entries slot)) rfl rfl
        (le_refl _)
      refine ⟨view.place slot (some (runConfigOf channel config)),
        ⟨hat, h.started, h.configured, hfrom, hdistinct, h.stopSignal, h.callerOptions, ?_⟩, ?_⟩
      · intro other hoccupied
        by_cases hsame : other = slot
        · rw [hsame, setEntry_self]
          have hbinary : manager.callerOptions.ffmpegBinary = options.ffmpegBinary := by
            rw [h.callerOptions]
          exact hbinary
        · rw [setEntry_of_ne _ _ hsame] at hoccupied ⊢
          exact h.binary other hoccupied
      · intro other run hrun
        by_cases hsame : other = slot
        · simp only [ManagerView.place, hsame, Function.update_self, Option.some.injEq] at hrun
          exact Or.inr (hrun ▸ rfl)
        · simp only [ManagerView.place, Function.update_of_ne hsame] at hrun
          exact Or.inl hrun
  · rw [if_neg henabled]
    exact ⟨view, h, fun _ _ => Or.inl⟩

theorem creating_foldl {channels : List GwChannelConfig}
    (hchannels : ∀ channel ∈ channels, channel ∈ config.channels)
    (hids : channels.Pairwise fun earlier channel => earlier.id ≠ channel.id) {view : ManagerView}
    {manager : GwChannelManager} (h : Creating config options view manager)
    (hnew : ∀ slot run, view.placed slot = some run →
      ∀ channel ∈ channels, (runChannel run).id ≠ channel.id) :
    ∃ view', Creating config options view' (channels.foldl (placeChannels config) manager) := by
  induction channels generalizing view manager with
  | nil => exact ⟨view, h⟩
  | cons channel rest ih =>
    obtain ⟨hdiffers, hids⟩ := List.pairwise_cons.mp hids
    obtain ⟨view', h', hplaced⟩ := h.place (hchannels channel List.mem_cons_self)
      fun slot run hrun => hnew slot run hrun channel List.mem_cons_self
    refine ih (fun other hother => hchannels other (List.mem_cons_of_mem _ hother)) hids h' ?_
    intro slot run hrun other hother
    rcases hplaced slot run hrun with hbefore | hsame
    · exact hnew slot run hbefore other (List.mem_cons_of_mem _ hother)
    · rw [hsame]
      exact hdiffers other hother

/-- An unoccupied manager. -/
theorem creating_blank {manager : GwChannelManager} (hentries : manager.entries = fun _ => blankEntry)
    (hactive : manager.activeThreads = 0) (hstarted : manager.started = false)
    (hconfig : manager.config = config) (hstop : manager.stopSignal = 0)
    (hoptions : manager.callerOptions = options) :
    Creating config options ⟨config, false, fun _ => none⟩ manager := by
  have hcounted : manager.countedThreads = 0 := by
    rw [GwChannelManager.countedThreads, hentries]
    exact Finset.sum_eq_zero fun _ _ => rfl
  refine ⟨⟨?_, ?_, ?_⟩, rfl, rfl, ?_, ?_, hstop, hoptions, ?_⟩
  · intro slot
    rw [hentries]
    exact ⟨rfl, by simp [blankEntry], le_refl _⟩
  · rw [hactive, hcounted, Nat.zero_mod]
  · rw [GwChannelManager.view, hentries, hstarted, hconfig]
    rfl
  · intro slot run hrun
    cases hrun
  · intro slot other run run' hrun
    cases hrun
  · intro slot hoccupied
    rw [hentries] at hoccupied
    cases hoccupied

/-- The manager before its channels are placed. -/
def unplacedManager (config : GwConfig) (options : GwSupervisorOptions) : GwChannelManager where
  config := config
  callerOptions := options
  stopSignal := 0
  activeThreads := 0
  metricsThreadStarted := false
  entries := fun _ => blankEntry
  started := false
  result := 0

/-- A creation that succeeds places the channels of an accepted configuration. -/
theorem gwChannelManagerCreate_eq {answers : CreateAnswers} {manager : GwChannelManager}
    (h : gwChannelManagerCreate answers config options = .ok manager) :
    options.ffmpegBinary.getD [] ≠ [] ∧ gwConfigValidate config = .ok () ∧
      manager = config.channels.foldl (placeChannels config) (unplacedManager config options) := by
  unfold gwChannelManagerCreate at h
  by_cases hbinary : options.ffmpegBinary.getD [] = []
  · simp [hbinary, throw, throwThe, MonadExceptOf.throw, bind, Except.bind] at h
  · rw [if_neg hbinary] at h
    refine ⟨hbinary, ?_⟩
    cases hvalid : gwConfigValidate config with
    | error error => simp [hvalid, bind, Except.bind] at h
    | ok value =>
      refine ⟨rfl, ?_⟩
      simp only [hvalid, bind, Except.bind, pure, Except.pure] at h
      split at h
      · cases h
      · split at h
        · cases h
        · split at h
          · cases h
          · split at h
            · cases h
            · rw [Except.ok.injEq] at h
              exact h.symm

/-- A created manager. -/
theorem gwChannelManagerCreate_created {answers : CreateAnswers} {manager : GwChannelManager}
    (h : gwChannelManagerCreate answers config options = .ok manager) :
    options.ffmpegBinary.getD [] ≠ [] ∧ gwConfigValidate config = .ok () ∧
      ∃ view, Creating config options view manager := by
  obtain ⟨hbinary, hvalid, rfl⟩ := gwChannelManagerCreate_eq h
  have hids := (gwConfigValidate_accepted hvalid).2.2.2
  exact ⟨hbinary, hvalid, creating_foldl (fun _ h => h) hids
    (creating_blank rfl rfl rfl rfl rfl rfl) (by simp)⟩

end Create

/-! ## Between two sections -/

/-- What holds of the view of a manager between two sections: its configuration was
accepted, and the slots run enabled channels under it, each id once. -/
structure ViewOk (view : ManagerView) : Prop where
  accepted : gwConfigValidate view.config = .ok ()
  placed : PlacementOk view.config view.placed

/-- What holds of a manager between two sections. -/
def ManagerInv (manager : GwChannelManager) : Prop := ∃ view, Rests view manager ∧ ViewOk view

theorem Creating.inv {config : GwConfig} {options : GwSupervisorOptions} {view : ManagerView}
    {manager : GwChannelManager} (h : Creating config options view manager)
    (hvalid : gwConfigValidate config = .ok ()) : ManagerInv manager := by
  refine ⟨view, rests_of_free h.assertion, ?_, ?_⟩
  · rw [h.configured]
    exact hvalid
  · rw [h.configured]
    exact h.placedFrom.ok h.distinct

theorem rests_safe {view : ManagerView} {manager : GwChannelManager} (h : Rests view manager) :
    ManagerSafe manager := by
  obtain ⟨stages, hresting⟩ := h
  exact hresting.assertion.safe

theorem rests_stable (stoppable : Prop) (answers : Option Errno → Prop) (view : ManagerView) :
    (managerSetting stoppable answers).Stable (Rests view) := by
  rintro manager after ⟨stages, h⟩ hstep
  exact ⟨stages, h.assertion.interferes hstep, h.rest, h.idle⟩

theorem managerInv_stable (stoppable : Prop) (answers : Option Errno → Prop) :
    (managerSetting stoppable answers).Stable ManagerInv := by
  rintro manager after ⟨view, h, hok⟩ hstep
  exact ⟨view, rests_stable stoppable answers view _ _ h hstep, hok⟩

section Calls

variable {stoppable : Prop} {answers : Option Errno → Prop} (hnone : answers none)
  {manager : GwChannelManager}

/-- A reload that was not rejected rests under the candidate. -/
theorem ReloadEnds.inv {start : ReloadStart}
    {result : Except GwError Unit × GwChannelReloadSummary}
    {stages : Fin gwMaxChannels → SlotStage} {after : GwChannelManager}
    (h : ReloadEnds answers start result stages after) (hstarted : start.view.started = true)
    (hvalid : gwConfigValidate start.candidate = .ok ())
    (hglobals : start.globalsEqual = workerGlobalsEqual start.view.config start.candidate)
    (hok : ViewOk start.view) : ManagerInv after := by
  have hreloaded := @reloadPlacement_reloaded start.view.config start.candidate start.view.placed
    hok.placed
  rw [← hglobals] at hreloaded
  refine ⟨_, ⟨stages, h.framed.assertion, h.rest, fun hnot => ?_⟩, hvalid, hreloaded.ok⟩
  rw [hstarted] at hnot
  cases hnot

include hnone in
/-- Every call keeps the invariant. -/
theorem wp_body (call : LifecycleCall) (h : ManagerInv manager) :
    call.body.wp (managerSetting stoppable answers) (fun _ => ManagerInv) manager := by
  obtain ⟨view, hrests, hok⟩ := h
  obtain ⟨stages, hresting⟩ := hrests
  cases call with
  | start =>
    rw [LifecycleCall.body, Section.wp_bind]
    exact wp_gwChannelManagerStart hnone hresting fun _ started after h => ⟨_, h, hok.1, hok.2⟩
  | startChannel channelId =>
    rw [LifecycleCall.body, Section.wp_bind]
    exact wp_gwChannelManagerStartChannel hnone hresting fun _ after h => ⟨_, h, hok⟩
  | stopChannel channelId =>
    rw [LifecycleCall.body, Section.wp_bind]
    exact wp_gwChannelManagerStopChannel hnone hresting fun _ after h => ⟨_, h, hok⟩
  | restartChannel channelId =>
    rw [LifecycleCall.body, Section.wp_bind]
    exact wp_gwChannelManagerRestartChannel hnone hresting fun _ after h => ⟨_, h, hok⟩
  | wait =>
    rw [LifecycleCall.body, Section.wp_bind]
    exact wp_gwChannelManagerWait hnone hresting fun _ after h => ⟨_, h, hok⟩
  | reload candidate =>
    rw [LifecycleCall.body, Section.wp_bind]
    refine wp_gwChannelManagerReload hnone hresting.assertion hresting.rest ?_ ?_
    · intro error after _ hframed
      exact ⟨view, ⟨stages, hframed.assertion, hresting.rest, hresting.idle⟩, hok⟩
    · intro result stages' after hstarted _ hvalid hends
      exact hends.inv hstarted hvalid rfl hok

end Calls

/-- The states between two sections: after the creation, and after any sequence of
calls, among the supervisor threads and requests to stop. -/
inductive ManagerReaches : GwChannelManager → Prop
  | created {answers : CreateAnswers} {config : GwConfig} {options : GwSupervisorOptions}
      {manager : GwChannelManager}
      (created : gwChannelManagerCreate answers config options = .ok manager) :
      ManagerReaches manager
  | called {manager later : GwChannelManager} (reached : ManagerReaches manager)
      (call : LifecycleCall) (arrives : call.arrives manager = true)
      (run : Section.Runs (managerSetting True fun _ => True) call.body manager () later) :
      ManagerReaches later

theorem ManagerReaches.inv {manager : GwChannelManager} (h : ManagerReaches manager) :
    ManagerInv manager := by
  induction h with
  | created created =>
    obtain ⟨-, hvalid, view, hcreating⟩ := gwChannelManagerCreate_created created
    exact hcreating.inv hvalid
  | @called manager later _ call _ run ih =>
    refine run.meets fun before hbefore => wp_body trivial call ?_
    exact (managerInv_stable True _).later ih hbefore

/-! ## A started manager -/

/-- A manager of one channel. -/
def createdManager : Except GwError GwChannelManager :=
  gwChannelManagerCreate ⟨true, none, none⟩ (configOf [watchedChannel (ascii "front")])
    gwSupervisorOptionsInit

/-- The first slot. -/
def firstSlot : Fin gwMaxChannels := ⟨0, by decide⟩

/-- What a call leaves when nothing interferes and `pthread_create` answers so. -/
def callAlone (answer : Option Errno) (call : LifecycleCall) (manager : GwChannelManager) :
    Option GwChannelManager :=
  (call.body.evaluate answer manager).map Prod.snd

/-- The manager once it is started. -/
def startedManager : Option GwChannelManager :=
  createdManager.toOption.bind (callAlone none .start)

theorem runs_callAlone {answer : Option Errno} {call : LifecycleCall}
    {manager later : GwChannelManager} (h : callAlone answer call manager = some later) :
    Section.Runs (managerSetting True fun _ => True) call.body manager () later := by
  unfold callAlone at h
  obtain ⟨⟨value, after⟩, heq, rfl⟩ := Option.map_eq_some_iff.mp h
  exact Section.runs_of_evaluate trivial heq

theorem reaches_callAlone {answer : Option Errno} {call : LifecycleCall}
    {manager later : GwChannelManager} (h : ManagerReaches manager)
    (harrives : call.arrives manager = true) (hcall : callAlone answer call manager = some later) :
    ManagerReaches later :=
  .called h call harrives (runs_callAlone hcall)

theorem createdManager_ok {manager : GwChannelManager}
    (h : createdManager.toOption = some manager) : createdManager = .ok manager := by
  cases hresult : createdManager with
  | error error =>
    rw [hresult] at h
    cases h
  | ok created =>
    rw [hresult] at h
    rw [← Option.some.inj h]

theorem startedManager_eq {manager : GwChannelManager} (h : startedManager = some manager) :
    ∃ created, createdManager = .ok created ∧ callAlone none .start created = some manager := by
  unfold startedManager at h
  obtain ⟨created, hcreated, hcall⟩ := Option.bind_eq_some_iff.mp h
  exact ⟨created, createdManager_ok hcreated, hcall⟩

theorem reaches_started {manager : GwChannelManager} (h : startedManager = some manager) :
    ManagerReaches manager := by
  obtain ⟨created, hcreated, hcall⟩ := startedManager_eq h
  exact reaches_callAlone (.created hcreated) rfl hcall

end LearnApue.Gateway
