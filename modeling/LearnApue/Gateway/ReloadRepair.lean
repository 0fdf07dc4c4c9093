import LearnApue.Gateway.ReloadRuns

set_option autoImplicit false

/-!
# Gateway: reloads after a failed reload

A slot is supervised once a thread was created for the configuration it runs.  A
reload decides by comparing configurations alone: what it keeps it does not start.
`history_reload_supervises` says what that means along any run, and
`reload_strands_slot` is the run in which a reload is sent twice.
-/

namespace LearnApue.Gateway

open LearnApue.Foundation

/-! ## Runs with their reloads -/

/-- A reload of a run. -/
structure ReloadRecord where
  candidate : GwConfig
  before : GwChannelManager
  result : Except GwError Unit × GwChannelReloadSummary
  after : GwChannelManager

/-- A run of the manager, with the reloads made on the way. -/
inductive ManagerHistory : GwChannelManager → List ReloadRecord → Prop
  | created {answers : CreateAnswers} {config : GwConfig} {options : GwSupervisorOptions}
      {manager : GwChannelManager}
      (created : gwChannelManagerCreate answers config options = .ok manager) :
      ManagerHistory manager []
  | called {manager later : GwChannelManager} {records : List ReloadRecord}
      (history : ManagerHistory manager records) (call : LifecycleCall)
      (other : ∀ candidate, call ≠ .reload candidate) (arrives : call.arrives manager = true)
      (run : Section.Runs (managerSetting True fun _ => True) call.body manager () later) :
      ManagerHistory later records
  | reloaded {manager later : GwChannelManager} {records : List ReloadRecord}
      (history : ManagerHistory manager records) (candidate : GwConfig)
      {result : Except GwError Unit × GwChannelReloadSummary}
      (run : Section.Runs (managerSetting True fun _ => True) (gwChannelManagerReload candidate)
        manager result later) :
      ManagerHistory later (records ++ [⟨candidate, manager, result, later⟩])

theorem ManagerHistory.reaches {manager : GwChannelManager} {records : List ReloadRecord}
    (h : ManagerHistory manager records) : ManagerReaches manager := by
  induction h with
  | created created => exact .created created
  | called _ call _ arrives run ih => exact .called ih call arrives run
  | reloaded _ candidate run ih =>
    exact .called ih (.reload candidate) rfl (run.andThen (.done .refl))

/-- The reloads of a run start from reached states. -/
theorem ManagerHistory.record {manager : GwChannelManager} {records : List ReloadRecord}
    (h : ManagerHistory manager records) {record : ReloadRecord} (hmem : record ∈ records) :
    ManagerReaches record.before ∧
      Section.Runs (managerSetting True fun _ => True) (gwChannelManagerReload record.candidate)
        record.before record.result record.after := by
  induction h with
  | created created => cases hmem
  | called _ call _ arrives run ih => exact ih hmem
  | reloaded history candidate run ih =>
    rcases List.mem_append.mp hmem with hearlier | hlast
    · exact ih hearlier
    · rw [List.mem_singleton.mp hlast]
      exact ⟨history.reaches, run⟩

/-! ## What a reload supervises -/

/-- Every occupied slot is supervised. -/
def GwChannelManager.AllSupervised (manager : GwChannelManager) : Prop :=
  ∀ slot, (manager.entries slot).occupied = true → (manager.entries slot).Supervised

/-- The reload compares the slot's configuration with the candidate's and keeps it. -/
def GwChannelManager.keeps (manager : GwChannelManager) (candidate : GwConfig)
    (slot : Fin gwMaxChannels) : Bool :=
  (manager.entries slot).occupied &&
    (findEnabledChannel candidate (manager.entries slot).channel.id.bytes).any fun replacement =>
      workerGlobalsEqual manager.config candidate &&
        channelConfigEqual (manager.entries slot).channel replacement

/-- Every slot the reload keeps is supervised before it. -/
def GwChannelManager.KeepsSupervised (manager : GwChannelManager) (candidate : GwConfig) : Prop :=
  ∀ slot, manager.keeps candidate slot = true → (manager.entries slot).Supervised

section Repair

variable {answers : Option Errno → Prop} {stages : Fin gwMaxChannels → SlotStage}
  {view : ManagerView} {manager later : GwChannelManager} {candidate : GwConfig}
  {slot : Fin gwMaxChannels} {result : Except GwError Unit × GwChannelReloadSummary}

/-- A slot with a thread is supervised. -/
theorem SlotOk.supervised {entry : GwChannelEntry} (h : SlotOk .held entry) : entry.Supervised := by
  obtain ⟨-, -, front, last, hends, -, hcreated, -⟩ := h
  exact ⟨front.length, last, hends.newer, hends.last_found, hcreated⟩

/-- The slots that are kept. -/
theorem At.keeps_iff (h : At stages view manager) :
    manager.keeps candidate slot = true ↔
      ∃ run, slotFate candidate (workerGlobalsEqual view.config candidate) (view.placed slot) =
        .unchanged run := by
  have hconfig : manager.config = view.config := by
    rw [← h.view]
    rfl
  unfold GwChannelManager.keeps
  rw [hconfig]
  cases hrun : view.placed slot with
  | none => simp [h.unoccupied hrun, slotFate]
  | some run =>
    obtain ⟨hoccupied, hchannel⟩ := h.channel hrun
    rw [hoccupied, hchannel, Bool.true_and]
    cases hfind : findEnabledChannel candidate (runChannel run).id.bytes with
    | none => simp [slotFate, hfind]
    | some replacement =>
      simp only [slotFate, hfind, Option.any_some]
      split
      · simp_all
      · simp_all

/-- A successful reload supervises every slot but those it keeps unsupervised. -/
theorem ReloadEnds.supervises {before : Fin gwMaxChannels → SlotStage}
    (h : ReloadEnds answers
      ⟨candidate, workerGlobalsEqual view.config candidate, view, before, manager.entries⟩ result
      stages later)
    (hat : At before view manager) (hok : result.1 = .ok ()) :
    later.AllSupervised ↔ manager.KeepsSupervised candidate := by
  constructor
  · intro hall slot hkeeps
    obtain ⟨run, hfate⟩ := hat.keeps_iff.mp hkeeps
    have hkept := (h.own hfate).kept
    have hoccupied := (Bool.and_eq_true_iff.mp hkeeps).1
    exact hkept.supervised.mp (hall slot (hkept.occupied.trans hoccupied))
  · intro hkeeps slot hoccupied
    have hslot := h.framed.assertion.slots slot
    rcases h.staged slot with ⟨-, hheld⟩ | ⟨hnot, hhistory⟩
    · rw [hheld hok] at hslot
      exact hslot.supervised
    · -- the slot ran something after the first loop, and still does
      obtain ⟨run, hrun⟩ := h.framed.assertion.occupied_iff.mp hoccupied
      cases hfate : ReloadStart.fate
          ⟨candidate, workerGlobalsEqual view.config candidate, view, before, manager.entries⟩
          slot with
      | empty | removed => exact absurd ⟨by rw [hfate]; rfl, Option.isSome_of_eq_some hrun⟩ hnot
      | unchanged run =>
        exact (h.own hfate).kept.supervised.mpr (hkeeps slot (hat.keeps_iff.mpr ⟨run, hfate⟩))
      | restarted run =>
        rw [hfate] at hhistory
        have hheld : stages slot = .held := hhistory hok
        rw [hheld] at hslot
        exact hslot.supervised

/-- In every run, a reload that succeeds leaves every occupied slot supervised exactly
if every slot it keeps was. -/
theorem history_reload_supervises {records : List ReloadRecord}
    (hhistory : ManagerHistory manager records) {record : ReloadRecord} (hmem : record ∈ records)
    (hok : record.result.1 = .ok ()) :
    record.after.AllSupervised ↔ record.before.KeepsSupervised record.candidate := by
  obtain ⟨hreached, hrun⟩ := hhistory.record hmem
  let answered : Option Errno → Prop := fun _ => True
  have hanswered : answered none := trivial
  obtain ⟨view, hrests, -⟩ := hreached.inv
  cases reload_outcome hanswered hrests hrun with
  | rejected rejected reason =>
    obtain ⟨error, herror⟩ := rejected.status
    rw [herror] at hok
    cases hok
  | accepted started running valid resting ends => exact ends.supervises resting.assertion hok

end Repair

/-! ## A reload sent twice -/

theorem history_started {manager : GwChannelManager} (h : startedManager = some manager) :
    ManagerHistory manager [] := by
  obtain ⟨created, hcreated, hcall⟩ := startedManager_eq h
  exact .called (.created hcreated) .start (fun _ heq => by cases heq) rfl (runs_callAlone hcall)

theorem history_reload_supervises_started :
    (startedManager.bind (reloadAlone none widerConfig)).map (fun outcome => outcome.1.1) =
        some (.ok ()) ∧
      ∀ manager result later, startedManager = some manager →
        reloadAlone none widerConfig manager = some (result, later) → result.1 = .ok () →
          (later.AllSupervised ↔ manager.KeepsSupervised widerConfig) := by
  refine ⟨by decide +kernel, fun manager result later h hreload hok => ?_⟩
  have hhistory := (history_started h).reloaded widerConfig (runs_reloadAlone hreload)
  exact history_reload_supervises hhistory
    (List.mem_append_right _ (List.mem_singleton.mpr rfl)) hok

/-- A thread that cannot be created. -/
def threadLimit : Errno := ⟨11, ascii "Resource temporarily unavailable"⟩

/-- The slot the other channel gets. -/
def secondSlot : Fin gwMaxChannels := ⟨1, by decide⟩

/-- A reload that fails, and the same one again. -/
def reloadTwice (manager : GwChannelManager) : Option (ReloadRecord × ReloadRecord) := do
  let (first, failed) ← reloadAlone (some threadLimit) widerConfig manager
  let (second, later) ← reloadAlone none widerConfig failed
  pure (⟨widerConfig, manager, first, failed⟩, ⟨widerConfig, failed, second, later⟩)

/-- The code of a status. -/
def statusCode : Except GwError Unit → Option GwStatus
  | .ok _ => none
  | .error error => some error.code

/-- What the two reloads report, and what they leave of the new channel's slot. -/
def reloadTwiceReport (records : ReloadRecord × ReloadRecord) :
    Option GwStatus × Option GwStatus × Bool × Bool :=
  (statusCode records.1.result.1, statusCode records.2.result.1,
    (records.2.after.entries secondSlot).occupied,
    (records.2.after.entries secondSlot).supervisors.any SupervisorThread.created)

theorem statusCode_none {status : Except GwError Unit} (h : statusCode status = none) :
    status = .ok () := by
  cases status with
  | ok value => rfl
  | error error => cases h

/-- The run in which a reload that failed is sent again, and nothing else is: the second
one succeeds, and a channel has no supervisor. -/
theorem reload_strands_slot :
    ∃ manager records, startedManager = some manager ∧ reloadTwice manager = some records ∧
      ManagerHistory records.2.after [records.1, records.2] ∧
      statusCode records.1.result.1 = some .errIo ∧ records.2.result.1 = .ok () ∧
      (records.2.after.entries secondSlot).occupied = true ∧
      ¬ (records.2.after.entries secondSlot).Supervised := by
  have hreport : (startedManager.bind reloadTwice).map reloadTwiceReport =
      some (some .errIo, none, true, false) := by decide +kernel
  obtain ⟨records, hrun, hreport⟩ := Option.map_eq_some_iff.mp hreport
  obtain ⟨manager, hstarted, htwice⟩ := Option.bind_eq_some_iff.mp hrun
  refine ⟨manager, records, hstarted, htwice, ?_⟩
  obtain ⟨⟨first, failed⟩, hfirst, hrest⟩ := Option.bind_eq_some_iff.mp htwice
  obtain ⟨⟨second, later⟩, hsecond, hrecords⟩ := Option.bind_eq_some_iff.mp hrest
  rw [Option.pure_def, Option.some.injEq] at hrecords
  rw [← hrecords] at hreport ⊢
  simp only [reloadTwiceReport, Prod.mk.injEq] at hreport
  obtain ⟨hfailed, hok, hoccupied, hnone⟩ := hreport
  have hhistory := ((history_started hstarted).reloaded widerConfig
    (runs_reloadAlone hfirst)).reloaded widerConfig (runs_reloadAlone hsecond)
  refine ⟨hhistory, hfailed, statusCode_none hok, hoccupied, ?_⟩
  rintro ⟨index, thread, -, hfound, hcreated⟩
  exact List.any_eq_false.mp hnone thread (List.mem_of_getElem? hfound) hcreated

end LearnApue.Gateway
