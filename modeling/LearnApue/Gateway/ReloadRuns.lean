import LearnApue.Gateway.ManagerActs
import LearnApue.Gateway.ManagerRuns

set_option autoImplicit false

/-!
# Gateway: complete runs of a reload

A reload of a reached manager either is rejected and changes nothing itself, or makes
the manager run the candidate: slot by slot (`ReloadRefines`), with no act on a slot
whose channel stays as it is (`gwChannelManagerReload_frame`).
-/

namespace LearnApue.Gateway

open LearnApue.Foundation

/-! ## Slots left alone -/

/-- A slot that no act touched: its own threads went on, and where none is live it is
as it was. -/
structure Untouched (before after : GwChannelEntry) : Prop where
  own : OwnSteps before after
  kept : SlotKept before after
  quiet : (∀ thread ∈ before.supervisors, thread.live = false) → after = before

/-- Only a live thread takes a step. -/
theorem OwnStep.live {before after : GwChannelEntry} (h : OwnStep before after) :
    ∃ thread ∈ before.supervisors, thread.live = true := by
  have hlive : ∀ {index : Nat} {thread : SupervisorThread},
      before.supervisors[index]? = some thread → thread.live = true →
      ∃ thread ∈ before.supervisors, thread.live = true :=
    fun hfound hthread => ⟨_, List.mem_of_getElem? hfound, hthread⟩
  cases h with
  | finishes found phase => exact hlive found (by simp [SupervisorThread.live, phase])
  | thread step =>
    cases step with
    | returns result found phase | stores found phase | observes snapshot found phase publishes =>
      exact hlive found (by simp [SupervisorThread.live, phase])

theorem OwnSteps.untouched {before after : GwChannelEntry} (h : OwnSteps before after) :
    Untouched before after := by
  refine ⟨h, h.kept, fun hquiet => ?_⟩
  rcases Relation.ReflTransGen.cases_head h with hsame | ⟨next, hstep, -⟩
  · exact hsame.symm
  · obtain ⟨thread, hmem, hlive⟩ := hstep.live
    rw [hquiet thread hmem] at hlive
    cases hlive

/-! ## How a reload ends -/

/-- A reload that was rejected: only the slots' own threads went on. -/
structure ReloadRejected (manager : GwChannelManager)
    (result : Except GwError Unit × GwChannelReloadSummary) (later : GwChannelManager) : Prop where
  status : ∃ error, result.1 = .error error
  changes : result.2 = ⟨0, 0, 0, 0⟩
  config : later.config = manager.config
  started : later.started = manager.started
  entries : ∀ slot, Untouched (manager.entries slot) (later.entries slot)

section Outcome

variable {stoppable : Prop} {answers : Option Errno → Prop} {view : ManagerView}
  {manager later : GwChannelManager} {candidate : GwConfig}
  {result : Except GwError Unit × GwChannelReloadSummary}

/-- What a reload leaves of a slot, seen from an earlier moment. -/
theorem SlotHistory.earlier {first before entry : GwChannelEntry} {fate : SlotFate}
    (hown : OwnSteps first before) (h : SlotHistory before fate entry) :
    SlotHistory first fate entry := by
  cases fate with
  | empty | unchanged run => exact hown.trans h
  | removed => trivial
  | restarted run =>
    have hgeneration : entry.generation = (before.generation + 1) % 2 ^ 64 := h
    rw [hown.kept.generation] at hgeneration
    exact hgeneration

/-- What a reload leaves, seen from an earlier moment. -/
theorem ReloadEnds.earlier {start : ReloadStart} {stages : Fin gwMaxChannels → SlotStage}
    (h : ReloadEnds answers start result stages later)
    {entries : Fin gwMaxChannels → GwChannelEntry}
    (hown : ∀ slot, OwnSteps (entries slot) (start.entries slot)) :
    ReloadEnds answers { start with entries := entries } result stages later := by
  refine ⟨⟨h.framed.assertion, fun slot => ?_⟩, h.rest, h.changes, h.staged, h.status, h.overflow⟩
  rcases h.framed.known slot with hadded | hhistory
  · exact Or.inl hadded
  · exact Or.inr (hhistory.earlier (hown slot))

/-- How a reload of a manager with this view ends. -/
inductive ReloadOutcome (stoppable : Prop) (answers : Option Errno → Prop) (view : ManagerView)
    (manager : GwChannelManager) (candidate : GwConfig)
    (result : Except GwError Unit × GwChannelReloadSummary) (later : GwChannelManager) : Prop
  | rejected (rejected : ReloadRejected manager result later)
      (reason : view.started = false ∨ (stoppable ∨ manager.stopSignal ≠ 0) ∨
        gwConfigValidate candidate ≠ .ok ())
  | accepted {stages stages' : Fin gwMaxChannels → SlotStage} (started : view.started = true)
      (running : manager.stopSignal = 0) (valid : gwConfigValidate candidate = .ok ())
      (resting : Resting stages view manager)
      (ends : ReloadEnds answers
        ⟨candidate, workerGlobalsEqual view.config candidate, view, stages, manager.entries⟩ result
        stages' later)

theorem reload_outcome (hnone : answers none) (hrests : Rests view manager)
    (hrun : Section.Runs (managerSetting stoppable answers) (gwChannelManagerReload candidate)
      manager result later) :
    ReloadOutcome stoppable answers view manager candidate result later := by
  obtain ⟨stages, hresting⟩ := hrests
  -- what the interference before the first act leaves
  have hstable : (managerSetting stoppable answers).Stable fun before =>
      Framed stages view (fun slot => OwnSteps (manager.entries slot)) before ∧
        StopKept stoppable manager before := by
    intro before after h hstep
    exact ⟨framed_stable stoppable answers (fun _ => ownSteps_lasting _) _ _ h.1 hstep,
      stopKept_stable stoppable answers manager _ _ h.2 hstep⟩
  refine @Section.Runs.meets _ _ _ _ _ (ReloadOutcome stoppable answers view manager candidate) _ _
    _ hrun fun before hbefore => ?_
  obtain ⟨hframed, hstop⟩ := hstable.later
    ⟨⟨hresting.assertion, fun _ => .refl⟩, fun h => h, fun _ => rfl⟩ hbefore
  refine wp_gwChannelManagerReload hnone hframed.assertion hresting.rest ?_ ?_
  · intro error after hreason hafter
    have hview : after.view = manager.view :=
      hafter.assertion.view.trans hresting.assertion.view.symm
    refine .rejected ⟨⟨error, rfl⟩, rfl, congrArg ManagerView.config hview,
      congrArg ManagerView.started hview,
      fun slot => OwnSteps.untouched ((hframed.known slot).trans (hafter.known slot))⟩ ?_
    rcases hreason with hnot | (hstoppable | hstopping) | hrejected
    · exact Or.inl hnot
    · exact Or.inr (Or.inl (Or.inl hstoppable))
    · by_cases hstoppable : stoppable
      · exact Or.inr (Or.inl (Or.inl hstoppable))
      · exact Or.inr (Or.inl (Or.inr (hstop.2 hstoppable ▸ hstopping)))
    · exact Or.inr (Or.inr hrejected)
  · intro result' stages' after hstarted hquiet hvalid hends
    have hnever : manager.stopSignal = 0 := by
      by_contra hstopping
      exact hstop.1 hstopping hquiet
    exact .accepted hstarted hnever hvalid hresting (hends.earlier hframed.known)

end Outcome

/-! ## A reload that adds a channel -/

/-- The started manager's channel and another one. -/
def widerConfig : GwConfig := configOf [watchedChannel (ascii "front"), watchedChannel (ascii "back")]

/-- A reload when nothing interferes and `pthread_create` answers so. -/
def reloadAlone (answer : Option Errno) (candidate : GwConfig) (manager : GwChannelManager) :
    Option ((Except GwError Unit × GwChannelReloadSummary) × GwChannelManager) :=
  (gwChannelManagerReload candidate).evaluate answer manager

theorem runs_reloadAlone {answer : Option Errno} {candidate : GwConfig}
    {manager later : GwChannelManager} {result : Except GwError Unit × GwChannelReloadSummary}
    (h : reloadAlone answer candidate manager = some (result, later)) :
    Section.Runs (managerSetting True fun _ => True) (gwChannelManagerReload candidate) manager
      result later := Section.runs_of_evaluate trivial h

theorem startedManager_running {manager : GwChannelManager} (h : startedManager = some manager) :
    manager.started = true ∧ manager.stopSignal = 0 := by
  have hrunning : startedManager.map (fun manager => (manager.started, manager.stopSignal)) =
      some (true, 0) := by decide +kernel
  rw [h, Option.map_some, Option.some.injEq, Prod.mk.injEq] at hrunning
  exact hrunning

theorem widerConfig_valid : gwConfigValidate widerConfig = .ok () := by decide +kernel

/-! ## A reload refines its candidate -/

/-- A slot runs this channel of the candidate: it is built alike, and retried alike. -/
structure RunsAs (candidate : GwConfig) (entry : GwChannelEntry) (channel : GwChannelConfig) :
    Prop where
  id : entry.channel.id = channel.id
  built : ∀ allocator ffmpegBinary,
    gwPipelineBuild allocator entry.channel entry.runConfig.mediamtx ffmpegBinary =
      gwPipelineBuild allocator channel candidate.mediamtx ffmpegBinary
  policy : entry.runConfig.defaults = candidate.defaults

/-- The manager runs the candidate, and the summary adds up. -/
structure ReloadRefines (candidate : GwConfig) (manager : GwChannelManager)
    (result : Except GwError Unit × GwChannelReloadSummary) (later : GwChannelManager) : Prop where
  status : result.1 = .ok ()
  enabled : ∀ channel ∈ candidate.channels, channel.enabled = true →
    ∃! slot, (later.entries slot).occupied = true ∧ (later.entries slot).channel.id = channel.id
  occupied : ∀ slot, (later.entries slot).occupied = true →
    ∃ channel ∈ candidate.channels, channel.enabled = true ∧
      RunsAs candidate (later.entries slot) channel
  before : result.2.unchanged + result.2.restarted + result.2.removed =
    slots.countP fun slot => (manager.entries slot).occupied
  after : result.2.unchanged + result.2.restarted + result.2.added =
    candidate.channels.countP (·.enabled)

section Refinement

variable {stages : Fin gwMaxChannels → SlotStage} {view : ManagerView}
  {manager later : GwChannelManager} {candidate : GwConfig} {slot : Fin gwMaxChannels}
  {result : Except GwError Unit × GwChannelReloadSummary}

/-- The occupied slots are the placed ones. -/
theorem At.countP_occupied (h : At stages view manager) :
    (Gateway.slots.countP fun slot => (manager.entries slot).occupied) =
      (occupiedSlots view.placed).card := by
  rw [countP_slots]
  congr 1
  ext slot
  rw [occupiedSlots, Finset.mem_filter_univ, Finset.mem_filter_univ, h.occupied slot]

theorem RunsChannel.runsAs {entry : GwChannelEntry} {channel : GwChannelConfig}
    (h : RunsChannel candidate entry.runConfig channel) : RunsAs candidate entry channel := by
  have hchannel : entry.channel = channel := h.channel
  refine ⟨by rw [hchannel], fun allocator ffmpegBinary => ?_, h.policy⟩
  rw [hchannel]
  exact gwPipelineBuild_congr allocator ffmpegBinary rfl rfl rfl h.base

/-- A reload whose threads are all created refines its candidate. -/
theorem ReloadEnds.refines {before : Fin gwMaxChannels → SlotStage}
    (h : ReloadEnds (· = none)
      ⟨candidate, workerGlobalsEqual view.config candidate, view, before, manager.entries⟩ result
      stages later)
    (hat : At before view manager) (hok : ViewOk view)
    (hvalid : gwConfigValidate candidate = .ok ())
    (hfits : candidate.channels.length ≤ gwMaxChannels) :
    ReloadRefines candidate manager result later := by
  have hids := (gwConfigValidate_accepted hvalid).2.2.2
  have hreloaded := @reloadPlacement_reloaded view.config candidate view.placed hok.placed
  have hroom := hreloaded.fits hfits
  have hlater := h.framed.assertion
  refine ⟨?_, ?_, ?_, ?_, ?_⟩
  · rcases h.status hroom with hstatus | ⟨⟨errno, hnone⟩, -⟩
    · exact hstatus
    · cases hnone
  · intro channel hmem henabled
    obtain ⟨slot, run, hrun, hid⟩ := hreloaded.covers hroom channel hmem henabled
    obtain ⟨hoccupied, hchannel⟩ := hlater.channel hrun
    refine ⟨slot, ⟨hoccupied, by rw [hchannel, hid]⟩, ?_⟩
    rintro other ⟨hoccupied', hid'⟩
    refine hreloaded.ok.distinct other slot _ run (hlater.run hoccupied') hrun ?_
    rw [hid]
    exact hid'
  · intro slot hoccupied
    obtain ⟨channel, hmem, henabled, hruns⟩ := hreloaded.placedFrom slot _ (hlater.run hoccupied)
    exact ⟨channel, hmem, henabled, hruns.runsAs⟩
  · rw [h.changes, hat.countP_occupied]
    exact hreloaded.before
  · rw [h.changes, ← hreloaded.card_enabled hroom hids]
    exact hreloaded.after

/-- A reload refines its candidate: it comes to an end, and every end of it is one
where the manager runs the candidate. -/
theorem gwChannelManagerReload_refines (hreached : ManagerReaches manager)
    (hstarted : manager.started = true) (hrunning : manager.stopSignal = 0)
    (hvalid : gwConfigValidate candidate = .ok ())
    (hfits : candidate.channels.length ≤ gwMaxChannels) :
    (∃ result later, Section.Runs (managerSetting False (· = none))
      (gwChannelManagerReload candidate) manager result later) ∧
    ∀ result later, Section.Runs (managerSetting False (· = none))
      (gwChannelManagerReload candidate) manager result later →
        ReloadRefines candidate manager result later := by
  obtain ⟨view, hrests, hok⟩ := hreached.inv
  have hview : view.started = true := by
    obtain ⟨stages, hresting⟩ := hrests
    rw [← hresting.assertion.view]
    exact hstarted
  let created : Option Errno → Prop := (· = none)
  have hnone : created none := rfl
  constructor
  · refine @Section.exists_run _ _ _ (managerSetting False created) _ (fun _ _ => True) _
      fun before hbefore => ?_
    obtain ⟨stages, hresting⟩ := (rests_stable False created view).later hrests hbefore
    exact wp_gwChannelManagerReload hnone hresting.assertion hresting.rest
      (fun _ _ _ _ => trivial) fun _ _ _ _ _ _ _ => trivial
  · intro result later hrun
    cases reload_outcome hnone hrests hrun with
    | rejected rejected reason =>
      rcases reason with hnot | (hstoppable | hstopping) | hinvalid
      · rw [hview] at hnot
        cases hnot
      · exact hstoppable.elim
      · exact absurd hrunning hstopping
      · exact absurd hvalid hinvalid
    | accepted started running valid resting ends =>
      exact ends.refines resting.assertion hok hvalid hfits

theorem gwChannelManagerReload_refines_started :
    startedManager.isSome = true ∧ ∀ manager, startedManager = some manager →
      (∃ result later, Section.Runs (managerSetting False (· = none))
        (gwChannelManagerReload widerConfig) manager result later) ∧
      ∀ result later, Section.Runs (managerSetting False (· = none))
        (gwChannelManagerReload widerConfig) manager result later →
          ReloadRefines widerConfig manager result later := by
  refine ⟨by decide +kernel, fun manager h => ?_⟩
  obtain ⟨hstarted, hrunning⟩ := startedManager_running h
  exact gwChannelManagerReload_refines (reaches_started h) hstarted hrunning widerConfig_valid
    (by decide)

end Refinement

/-! ## What a reload leaves alone -/

/-- The slot runs this channel of the candidate as it stands there, with its globals. -/
structure Unaffected (candidate : GwConfig) (entry : GwChannelEntry) (channel : GwChannelConfig) :
    Prop where
  channel : entry.channel = channel
  base : entry.runConfig.mediamtx.publishBaseUrl = candidate.mediamtx.publishBaseUrl
  policy : entry.runConfig.defaults = candidate.defaults

/-- The frame of a reload. -/
structure ReloadFrame (stoppable : Prop) (candidate : GwConfig) (manager : GwChannelManager)
    (result : Except GwError Unit × GwChannelReloadSummary) (later : GwChannelManager) : Prop where
  unavailable : manager.started = false ∨ manager.stopSignal ≠ 0 ∨
    gwConfigValidate candidate ≠ .ok () → ReloadRejected manager result later
  unaffected : ∀ slot, (manager.entries slot).occupied = true →
    ∀ channel ∈ candidate.channels, channel.enabled = true →
      Unaffected candidate (manager.entries slot) channel →
      Untouched (manager.entries slot) (later.entries slot)
  /-- unless the stop request overtakes the reload -/
  changed : manager.started = true → manager.stopSignal = 0 → gwConfigValidate candidate = .ok () →
    (stoppable ∧ ReloadRejected manager result later) ∨
      ∀ slot, (manager.entries slot).occupied = true →
        ∀ channel ∈ candidate.channels, channel.enabled = true →
          (manager.entries slot).channel.id = channel.id →
          ¬ Unaffected candidate (manager.entries slot) channel →
          (later.entries slot).generation = ((manager.entries slot).generation + 1) % 2 ^ 64
  again : result.1 = .ok () → ∀ result' later',
    Section.Runs (managerSetting stoppable fun _ => True) (gwChannelManagerReload candidate) later
      result' later' →
    (∀ slot, Untouched (later.entries slot) (later'.entries slot)) ∧
      ((stoppable ∧ ReloadRejected later result' later') ∨
        result' = (.ok (), ⟨slots.countP fun slot => (later.entries slot).occupied, 0, 0, 0⟩))

section Frame

variable {stoppable : Prop} {answers : Option Errno → Prop} {stages : Fin gwMaxChannels → SlotStage}
  {view : ManagerView} {manager later : GwChannelManager} {candidate : GwConfig}
  {slot : Fin gwMaxChannels} {result : Except GwError Unit × GwChannelReloadSummary}

/-- A reload does not stop the manager. -/
theorem reload_stopSignal (hnot : ¬ stoppable)
    (hrun : Section.Runs (managerSetting stoppable answers) (gwChannelManagerReload candidate)
      manager result later) : later.stopSignal = manager.stopSignal := by
  have hacts : (gwChannelManagerReload candidate).Acts (LifecycleAct False) :=
    gwChannelManagerReload_acts candidate
  have htrace := hrun.trace hacts
  clear hrun
  induction htrace with
  | refl => rfl
  | tail _ hstep ih =>
    rcases hstep with hinterferes | hact
    · have hkept := stopKept_stable stoppable answers _ _ _ ⟨fun h => h, fun _ => rfl⟩ hinterferes
      exact (hkept.2 hnot).trans ih
    · exact (hact.stopSignal.resolve_left id).trans ih

/-- What an occupied slot runs has the globals of the manager's configuration. -/
theorem ViewOk.unaffected_iff (hok : ViewOk view) (h : At stages view manager)
    (hoccupied : (manager.entries slot).occupied = true) (channel : GwChannelConfig) :
    Unaffected candidate (manager.entries slot) channel ↔
      (workerGlobalsEqual view.config candidate &&
        channelConfigEqual (manager.entries slot).channel channel) = true := by
  have hglobals := hok.placed.globals slot _ (h.run hoccupied)
  rw [Bool.and_eq_true, workerGlobalsEqual_iff, channelConfigEqual_iff, ← hglobals.base,
    ← hglobals.policy]
  exact ⟨fun h => ⟨⟨h.base, h.policy⟩, h.channel⟩, fun h => ⟨h.2, h.1.1, h.1.2⟩⟩

/-- What is known of a slot that runs something after the first loop. -/
theorem ReloadEnds.history {start : ReloadStart} (h : ReloadEnds answers start result stages later)
    {run : GwConfig} (hrun : (start.fate slot).run = some run) :
    SlotHistory (start.entries slot) (start.fate slot) (later.entries slot) := by
  rcases h.framed.known slot with ⟨hadded, -⟩ | hhistory
  · have hnone := hadded.1
    rw [hrun] at hnone
    cases hnone
  · exact hhistory

theorem ReloadEnds.own {start : ReloadStart} (h : ReloadEnds answers start result stages later)
    {run : GwConfig} (hfate : start.fate slot = .unchanged run) :
    OwnSteps (start.entries slot) (later.entries slot) := by
  have hhistory := h.history (congrArg SlotFate.run hfate)
  rw [hfate] at hhistory
  exact hhistory

theorem ReloadEnds.generation {start : ReloadStart}
    (h : ReloadEnds answers start result stages later) {run : GwConfig}
    (hfate : start.fate slot = .restarted run) :
    (later.entries slot).generation = ((start.entries slot).generation + 1) % 2 ^ 64 := by
  have hhistory := h.history (congrArg SlotFate.run hfate)
  rw [hfate] at hhistory
  exact hhistory

/-- The fate of an occupied slot whose channel is enabled in the candidate. -/
theorem At.fate_enabled (h : At stages view manager)
    (hids : candidate.channels.Pairwise fun earlier channel => earlier.id ≠ channel.id)
    (hoccupied : (manager.entries slot).occupied = true) {channel : GwChannelConfig}
    (hmem : channel ∈ candidate.channels) (henabled : channel.enabled = true)
    (hid : (manager.entries slot).channel.id = channel.id) :
    slotFate candidate (workerGlobalsEqual view.config candidate) (view.placed slot) =
      if workerGlobalsEqual view.config candidate &&
          channelConfigEqual (manager.entries slot).channel channel then
        .unchanged (manager.entries slot).runConfig
      else .restarted (runConfigOf channel candidate) := by
  rw [h.run hoccupied]
  exact slotFate_enabled hids hmem henabled hid _

/-- A reload of what already runs. -/
theorem ReloadEnds.again {before : Fin gwMaxChannels → SlotStage}
    (h : ReloadEnds answers ⟨candidate, workerGlobalsEqual candidate candidate, view, before,
      manager.entries⟩ result stages later)
    (hat : At before view manager)
    (hids : candidate.channels.Pairwise fun earlier channel => earlier.id ≠ channel.id)
    (hfrom : PlacedFrom candidate view.placed)
    (hcovers : ∀ channel ∈ candidate.channels, channel.enabled = true →
      ∃ slot run, view.placed slot = some run ∧ (runChannel run).id = channel.id) :
    (∀ slot, Untouched (manager.entries slot) (later.entries slot)) ∧
      result = (.ok (), ⟨slots.countP fun slot => (manager.entries slot).occupied, 0, 0, 0⟩) := by
  have hfinal := reloadPlacement_again hids hfrom hcovers
  have hchanges : result.2 = ⟨(occupiedSlots view.placed).card, 0, 0, 0⟩ := by
    rw [h.changes, ReloadStart.final, hfinal]
  constructor
  · intro slot
    refine OwnSteps.untouched ?_
    cases hrun : view.placed slot with
    | some run =>
      have hfate := slotFate_same hids hfrom hrun
      rw [← hrun] at hfate
      exact h.own hfate
    | none =>
      rcases h.framed.known slot with ⟨⟨-, hadded⟩, -⟩ | hhistory
      · rw [ReloadStart.final, hfinal] at hadded
        simp only [hrun, Option.isSome_none] at hadded
        cases hadded
      · simp only [ReloadStart.fate, hrun, slotFate] at hhistory
        exact hhistory
  · have hstatus : result.1 = .ok () := by
      have hexplained := h.status (by rw [ReloadStart.final, hfinal])
      rcases hexplained with hok | ⟨-, hstarts⟩
      · exact hok
      · rw [hchanges] at hstarts
        cases hstarts
    rw [hat.countP_occupied, ← hchanges, ← hstatus]

/-- A reload leaves unaffected slots alone, and a second one everything. -/
theorem gwChannelManagerReload_frame (hreached : ManagerReaches manager)
    (hrun : Section.Runs (managerSetting stoppable fun _ => True)
      (gwChannelManagerReload candidate) manager result later) :
    ReloadFrame stoppable candidate manager result later := by
  let answered : Option Errno → Prop := fun _ => True
  have hanswered : answered none := trivial
  obtain ⟨view, hrests, hok⟩ := hreached.inv
  cases reload_outcome hanswered hrests hrun with
  | rejected rejected reason =>
    refine ⟨fun _ => rejected, fun slot _ _ _ _ _ => rejected.entries slot, ?_, ?_⟩
    · intro hstarted hrunning hvalid
      refine Or.inl ⟨?_, rejected⟩
      obtain ⟨stages, hresting⟩ := hrests
      have hview : manager.started = view.started := by
        rw [← hresting.assertion.view]
        rfl
      rcases reason with hnot | (hstoppable | hstopping) | hinvalid
      · rw [hview, hnot] at hstarted
        cases hstarted
      · exact hstoppable
      · exact absurd hrunning hstopping
      · exact absurd hvalid hinvalid
    · intro hresult
      obtain ⟨error, herror⟩ := rejected.status
      rw [herror] at hresult
      cases hresult
  | @accepted stages stages' started running valid resting ends =>
    have hids := (gwConfigValidate_accepted valid).2.2.2
    have hview : manager.started = view.started := by
      rw [← resting.assertion.view]
      rfl
    refine ⟨?_, ?_, fun _ _ _ => Or.inr ?_, ?_⟩
    · rintro (hnot | hstopping | hinvalid)
      · rw [hview, started] at hnot
        cases hnot
      · exact absurd running hstopping
      · exact absurd valid hinvalid
    · intro slot hoccupied channel hmem henabled hsame
      have hfate := resting.assertion.fate_enabled hids hoccupied hmem henabled
        (congrArg GwChannelConfig.id hsame.channel)
      rw [if_pos ((hok.unaffected_iff resting.assertion hoccupied channel).mp hsame)] at hfate
      exact (ends.own hfate).untouched
    · intro slot hoccupied channel hmem henabled hid hdiffers
      have hfate := resting.assertion.fate_enabled hids hoccupied hmem henabled hid
      rw [if_neg fun hequal => hdiffers
        ((hok.unaffected_iff resting.assertion hoccupied channel).mpr hequal)] at hfate
      exact ends.generation hfate
    · intro hresult result' later' hrun'
      have hreloaded := @reloadPlacement_reloaded view.config candidate view.placed hok.placed
      have hroom : (reloadPlacement candidate (workerGlobalsEqual view.config candidate)
          view.placed).2 = false := by
        by_contra hfull
        exact ends.overflow (Bool.eq_true_of_not_eq_false hfull) hresult
      have hrests' : Rests _ later :=
        ⟨stages', ends.framed.assertion, ends.rest, fun hnot => by rw [started] at hnot; cases hnot⟩
      cases reload_outcome hanswered hrests' hrun' with
      | rejected rejected reason =>
        refine ⟨rejected.entries, Or.inl ⟨?_, rejected⟩⟩
        rcases reason with hnot | (hstoppable | hstopping) | hinvalid
        · rw [started] at hnot
          cases hnot
        · exact hstoppable
        · by_contra hnot
          exact hstopping ((reload_stopSignal hnot hrun).trans running)
        · exact absurd valid hinvalid
      | accepted started' running' valid' resting' ends' =>
        obtain ⟨huntouched, hsame⟩ := ends'.again resting'.assertion hids hreloaded.placedFrom
          (hreloaded.covers hroom)
        exact ⟨huntouched, Or.inr hsame⟩

theorem gwChannelManagerReload_frame_started :
    (startedManager.bind (reloadAlone none widerConfig)).map Prod.fst =
        some (.ok (), ⟨1, 1, 0, 0⟩) ∧
      ∀ manager result later, startedManager = some manager →
        reloadAlone none widerConfig manager = some (result, later) →
          ReloadFrame True widerConfig manager result later := by
  refine ⟨by decide +kernel, fun manager result later h hreload => ?_⟩
  exact gwChannelManagerReload_frame (reaches_started h) (runs_reloadAlone hreload)

end Frame

end LearnApue.Gateway
