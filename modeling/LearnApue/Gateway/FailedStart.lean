import LearnApue.Gateway.ManagerActs
import LearnApue.Gateway.ManagerRuns

set_option autoImplicit false

/-!
# Gateway: a start of the channel manager that fails

`gw_channel_manager_start` has two ways to fail, a channel's thread and the sampler's
thread.  Both join every supervisor thread that was created.  Both also ask the
manager to stop, and nothing ever takes that back; and only the second one clears
`started` again.
-/

namespace LearnApue.Gateway

open LearnApue.Foundation

/-! ## What a failed start would have to undo -/

/-- No supervisor thread is left running. -/
def NoneRunning (manager : GwChannelManager) : Prop :=
  ∀ slot, ∀ thread ∈ (manager.entries slot).supervisors, thread.live = false

/-- The manager was asked to stop. -/
def Stopping (manager : GwChannelManager) : Prop := manager.stopSignal ≠ 0

/-- A failed start left the manager as it was: no thread, not started, not stopping. -/
structure StartUndone (manager : GwChannelManager) : Prop where
  none : NoneRunning manager
  started : manager.started = false
  running : ¬ Stopping manager

/-- With every slot free no thread runs. -/
theorem At.noneRunning {view : ManagerView} {manager : GwChannelManager}
    (h : At (fun _ => .free) view manager) : NoneRunning manager := by
  intro slot thread hthread
  exact ((h.slots slot).2.ended thread hthread).not_live

/-! ## Nothing takes a stop back -/

/-- A step that does not take a stop back. -/
def KeepsStopping (before after : GwChannelManager) : Prop := Stopping before → Stopping after

theorem LifecycleAct.keepsStopping {before after : GwChannelManager}
    (h : LifecycleAct False before after) : KeepsStopping before after := by
  intro hstopping
  rw [Stopping, h.stopSignal.resolve_left id]
  exact hstopping

theorem stopping_stable (stoppable : Prop) (answers : Option Errno → Prop) :
    (managerSetting stoppable answers).Stable Stopping := by
  intro manager after hstopping hstep
  unfold Stopping at hstopping ⊢
  cases hstep with
  | thread slot step => exact hstopping
  | finishes slot found phase => exact hstopping
  | requestStop allowed signal nonzero => exact nonzero

/-- What every act of a class of sections does, seen from a weaker relation. -/
theorem sectionClass_mono {R : GwChannelManager → GwChannelManager → Prop}
    (himp : ∀ before after, LifecycleAct False before after → R before after) :
    SectionClass fun body => body.Acts R :=
  have hplain := plainClass_acts fun manager => himp _ _ (lifecycleAct_refl manager)
  { hplain with
    slots := fun slot =>
      { hplain with
        start := ((sectionClass_acts.slots slot).start).mono himp
        stop := ((sectionClass_acts.slots slot).stop).mono himp
        reap := ((sectionClass_acts.slots slot).reap).mono himp }
    write := fun f hf => (sectionClass_acts.write f hf).mono himp
    createMetrics := sectionClass_acts.createMetrics.mono himp
    release := fun slot => (sectionClass_acts.release slot).mono himp
    configure := fun slot _ _ haccepted hmem henabled =>
      (sectionClass_acts.configure slot haccepted hmem henabled).mono himp }

theorem sectionClass_keepsStopping : SectionClass fun body => body.Acts KeepsStopping :=
  sectionClass_mono fun _ _ => LifecycleAct.keepsStopping

/-- A request to stop always stores a signal. -/
theorem requestStop_stopping (signal : Int) (manager : GwChannelManager) :
    Stopping { manager with stopSignal := if signal ≠ 0 then signal else sigterm } := by
  unfold Stopping sigterm
  dsimp only
  split
  · assumption
  · decide

theorem gwChannelManagerRequestStop_acts (signal : Int) :
    (gwChannelManagerRequestStop signal).Acts KeepsStopping :=
  Section.acts_write fun manager _ => requestStop_stopping signal manager

theorem gwChannelManagerStart_keepsStopping : gwChannelManagerStart.Acts KeepsStopping :=
  sectionClass_keepsStopping.start gwChannelManagerRequestStop_acts

/-! ## The start -/

section Start

variable {stoppable : Prop} {answers : Option Errno → Prop} (hnone : answers none)
  {stages : Fin gwMaxChannels → SlotStage} {view : ManagerView} {manager : GwChannelManager}

include hnone in
/-- What runs behind the request to stop ends with the manager stopping. -/
theorem wp_requestStop {α : Type} {rest : Lifecycle α} {post : α → GwChannelManager → Prop}
    (h : At stages view manager) (hacts : rest.Acts KeepsStopping)
    (hrest : ∀ after, At stages view after →
      rest.wp (managerSetting stoppable answers)
        (fun value last => Stopping last → post value last) after) :
    (gwChannelManagerRequestStop sigterm >>= fun _ => rest).wp
      (managerSetting stoppable answers) post manager := by
  have hstable : (managerSetting stoppable answers).Stable fun manager =>
      At stages view manager ∧ Stopping manager := by
    intro before after hbefore hstep
    exact ⟨hbefore.1.interferes hstep,
      stopping_stable stoppable answers before after hbefore.2 hstep⟩
  rw [Section.wp_bind]
  refine Section.wp_write (fun manager => At stages view manager ∧ Stopping manager) ⟨none, hnone⟩
    ⟨⟨h.slots, h.counter, h.view⟩, ?_⟩ hstable (fun _ hafter => hafter.1.safe) fun after hafter => ?_
  · exact requestStop_stopping sigterm manager
  · have hframed := hacts.wp_and (fun _ _ hkeeps => hkeeps) (stopping_stable stoppable answers)
      hafter.2 (hrest after hafter.1)
    exact Section.wp_mono hframed fun _ _ hlast => hlast.1 hlast.2

/-- How a start fails that found the manager not started. -/
def StartFailed (error : GwError) (manager : GwChannelManager) : Prop :=
  NoneRunning manager ∧ Stopping manager ∧
    (manager.started = true ∨
      ∃ errno, error = ioError "cannot start metrics sampler: " errno)

include hnone in
theorem wp_gwChannelManagerStart_fails (h : At (fun _ => .free) view manager)
    (hidle : view.started = false) :
    gwChannelManagerStart.wp (managerSetting stoppable answers)
      (fun status after => ∀ error, status = .error error → StartFailed error after) manager := by
  have hstopEntries : (stopEntries slots).Acts KeepsStopping :=
    sectionClass_keepsStopping.stopEntries slots
  have hnotStarted : manager.started = false := by
    rw [← hidle, ← h.view]
    rfl
  simp only [gwChannelManagerStart]
  rw [Section.wp_bind]
  refine wp_read_at hnone h fun after hafter => ?_
  rw [hnotStarted]
  simp only [Bool.false_eq_true, if_false]
  rw [Section.wp_bind]
  refine wp_write_at hnone (hafter.setStarted true) fun _ h => ?_
  rw [Section.wp_bind]
  refine wp_startEntries hnone h (fun _ => Or.inl rfl) (List.nodup_finRange _)
    (fun _ _ => rfl) fun status stages' _ hrest h => ?_
  cases status with
  | error error =>
    refine wp_requestStop hnone h (Section.acts_bind hstopEntries fun _ => trivial)
      fun after hafter => ?_
    rw [Section.wp_bind]
    refine wp_stopAll hnone hafter hrest fun last hlast hstopping other hother => ?_
    exact ⟨hlast.noneRunning, hstopping, Or.inl (congrArg ManagerView.started hlast.view)⟩
  | ok value =>
    dsimp only
    rw [Section.wp_bind]
    refine wp_createMetricsThread hnone h fun answer _ h => ?_
    cases answer with
    | none =>
      dsimp only
      rw [Section.wp_bind]
      refine wp_write_keep hnone h (fun _ => ⟨rfl, rfl, rfl⟩) fun after _ => ?_
      intro error herror
      cases herror
    | some errno =>
      refine wp_requestStop hnone h (Section.acts_bind hstopEntries fun _ =>
        Section.acts_bind (Section.acts_write fun _ hstopping => hstopping) fun _ => trivial)
        fun after hafter => ?_
      rw [Section.wp_bind]
      refine wp_stopAll hnone hafter hrest fun before hbefore => ?_
      rw [Section.wp_bind]
      refine wp_write_at hnone (hbefore.setStarted false) fun last hlast => ?_
      intro hstopping other hother
      exact ⟨hlast.noneRunning, hstopping, Or.inr ⟨errno, (Except.error.inj hother).symm⟩⟩

end Start

/-- No run of a section that keeps the manager stopping ends that. -/
theorem stopping_of_runs {stoppable : Prop} {α : Type} {body : Lifecycle α}
    (hacts : body.Acts KeepsStopping) {manager later : GwChannelManager} {value : α}
    (hrun : Section.Runs (managerSetting stoppable fun _ => True) body manager value later)
    (h : Stopping manager) : Stopping later := by
  have htrace := hrun.trace hacts
  clear hrun
  induction htrace with
  | refl => exact h
  | tail _ hstep ih =>
    rcases hstep with hstep | hact
    · exact stopping_stable stoppable (fun _ => True) _ _ ih hstep
    · exact hact ih

/-- No failed start of a created manager is undone.  Whichever thread could not be
created, no supervisor thread is left running; but the manager is stopping, and stays
so in every later start, and it is still started too unless the sampler's thread was
the one. -/
theorem failed_start {createAnswers : CreateAnswers} {config : GwConfig}
    {options : GwSupervisorOptions} {manager later : GwChannelManager} {error : GwError}
    {stoppable : Prop}
    (hcreated : gwChannelManagerCreate createAnswers config options = .ok manager)
    (hrun : Section.Runs (managerSetting stoppable fun _ => True) gwChannelManagerStart manager
      (.error error) later) :
    ¬ StartUndone later ∧ StartFailed error later ∧
      ∀ status last, Section.Runs (managerSetting stoppable fun _ => True) gwChannelManagerStart
        later status last → Stopping last := by
  obtain ⟨-, -, view, hcreating⟩ := gwChannelManagerCreate_created hcreated
  have hfails : ∀ before, (managerSetting stoppable fun _ => True).Later manager before →
      gwChannelManagerStart.wp (managerSetting stoppable fun _ => True)
        (fun status after => ∀ error, status = .error error → StartFailed error after) before := by
    intro before hbefore
    exact wp_gwChannelManagerStart_fails trivial
      ((at_stable stoppable _ _ view).later hcreating.assertion hbefore) hcreating.started
  have hfailed : StartFailed error later := hrun.meets hfails error rfl
  refine ⟨fun hundone => hundone.running hfailed.2.1, hfailed, fun status last hagain => ?_⟩
  exact stopping_of_runs gwChannelManagerStart_keepsStopping hagain hfailed.2.1

/-- The start of the manager of one channel when no thread can be created. -/
def startedWithoutThreads : Option (Except GwError Unit × GwChannelManager) :=
  createdManager.toOption.bind fun manager =>
    gwChannelManagerStart.evaluate (some ⟨11, ascii "Resource temporarily unavailable"⟩) manager

theorem startedWithoutThreads_eq :
    startedWithoutThreads.map (fun outcome =>
      (outcome.1.toOption.isNone, outcome.2.started, outcome.2.stopSignal)) =
        some (true, true, 15) := by decide +kernel

/-- It is a run that fails. -/
theorem runs_startedWithoutThreads :
    ∃ manager error later, createdManager = .ok manager ∧
      Section.Runs (managerSetting False fun _ => True) gwChannelManagerStart manager
        (.error error) later ∧ later.started = true ∧ later.stopSignal = 15 := by
  obtain ⟨⟨status, later⟩, houtcome, hvalues⟩ :=
    Option.map_eq_some_iff.mp startedWithoutThreads_eq
  obtain ⟨manager, hmanager, heq⟩ := Option.bind_eq_some_iff.mp houtcome
  simp only [Prod.mk.injEq] at hvalues
  cases status with
  | ok value => cases hvalues.1
  | error error =>
    exact ⟨manager, error, later, createdManager_ok hmanager,
      Section.runs_of_evaluate trivial heq, hvalues.2⟩

theorem failed_start_without_threads :
    ∃ manager error later, createdManager = .ok manager ∧
      Section.Runs (managerSetting False fun _ => True) gwChannelManagerStart manager
        (.error error) later ∧ ¬ StartUndone later ∧ StartFailed error later := by
  obtain ⟨manager, error, later, hcreated, hrun, -⟩ := runs_startedWithoutThreads
  obtain ⟨hnot, hfailed, -⟩ := failed_start hcreated hrun
  exact ⟨manager, error, later, hcreated, hrun, hnot, hfailed⟩

/-- The failed start does not leave the manager as it was. -/
theorem failed_start_counterexample :
    ¬ ∀ manager error later, createdManager = .ok manager →
      Section.Runs (managerSetting False fun _ => True) gwChannelManagerStart manager
        (.error error) later → StartUndone later := by
  intro hclaim
  obtain ⟨manager, error, later, hcreated, hrun, hstarted, -⟩ := runs_startedWithoutThreads
  have hundone := hclaim manager error later hcreated hrun
  rw [hundone.started] at hstarted
  cases hstarted

end LearnApue.Gateway
