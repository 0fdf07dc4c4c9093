import LearnApue.Gateway.ManagerRuns

set_option autoImplicit false

/-!
# Gateway: at most one supervisor for a channel

The lock of the manager with any number of callers: in every state of every
interleaving a slot has at most one live thread, no handle is lost and none joined
twice, and `active_threads` counts the threads that have yet to be subtracted.
-/

namespace LearnApue.Gateway

open LearnApue.Foundation

/-- A slot's threads in any state. -/
structure SupervisedOnce (entry : GwChannelEntry) : Prop where
  live : entry.supervisors.countP SupervisorThread.live ≤ 1
  /-- a thread that was created and not joined is the one the handle leads to -/
  handle : ∀ index thread, entry.supervisors[index]? = some thread → thread.created = true →
    thread.joins = 0 → entry.thread = some index
  joins : ∀ thread ∈ entry.supervisors, thread.joins ≤ 1
  unoccupied : entry.occupied = false → ∀ thread ∈ entry.supervisors,
    thread.live = false ∧ (thread.created = true → thread.joins = 1)

section Slot

variable {entry : GwChannelEntry} {front : List SupervisorThread} {last : SupervisorThread}

theorem SupervisorThread.Over.joins_le {thread : SupervisorThread} (h : thread.Over) :
    thread.joins ≤ 1 := by
  rcases h with ⟨-, hjoins⟩ | ⟨-, hjoins⟩ <;> omega

/-- A thread that is over and was created has been joined. -/
theorem SupervisorThread.Over.joined {thread : SupervisorThread} (h : thread.Over)
    (hcreated : thread.created = true) : thread.joins = 1 := by
  rcases h with ⟨-, hjoins⟩ | ⟨hphase, -⟩
  · exact hjoins
  · simp [SupervisorThread.created, hphase] at hcreated

theorem GwChannelEntry.AllOver.supervisedOnce (h : entry.AllOver) : SupervisedOnce entry := by
  refine ⟨?_, ?_, fun thread hthread => (h.ended thread hthread).joins_le, ?_⟩
  · rw [List.countP_eq_zero.mpr fun thread hthread => by simp [(h.ended thread hthread).not_live]]
    exact Nat.zero_le 1
  · intro index thread hfound hcreated hjoins
    have hover := h.ended thread (List.mem_of_getElem? hfound)
    rw [hover.joined hcreated] at hjoins
    cases hjoins
  · intro _ thread hthread
    exact ⟨(h.ended thread hthread).not_live, (h.ended thread hthread).joined⟩

/-- An occupied slot whose last thread, once it is created, is the handle's. -/
theorem GwChannelEntry.EndsWith.supervisedOnce (h : entry.EndsWith front last)
    (hoccupied : entry.occupied = true) (hjoins : last.joins = 0)
    (hhandle : last.created = true → entry.thread = some front.length) : SupervisedOnce entry := by
  have hnone : front.countP SupervisorThread.live = 0 :=
    List.countP_eq_zero.mpr fun thread hthread => by simp [(h.ended thread hthread).not_live]
  refine ⟨?_, ?_, ?_, ?_⟩
  · rw [h.split, List.countP_append, hnone, List.countP_singleton]
    split <;> omega
  · intro index thread hfound hcreated hnever
    rw [h.split] at hfound
    by_cases hbefore : index < front.length
    · rw [List.getElem?_append_left hbefore] at hfound
      have hover := h.ended thread (List.mem_of_getElem? hfound)
      rw [hover.joined hcreated] at hnever
      cases hnever
    · rw [List.getElem?_append_right (by omega), List.getElem?_singleton] at hfound
      split at hfound
      · rename_i hindex
        rw [Option.some.inj hfound] at hhandle
        rw [hhandle hcreated]
        congr 1
        omega
      · cases hfound
  · rw [h.split]
    intro thread hthread
    rcases List.mem_append.mp hthread with hfront | hone
    · exact (h.ended thread hfront).joins_le
    · rw [List.mem_singleton.mp hone, hjoins]
      exact Nat.zero_le 1
  · intro hnot
    rw [hoccupied] at hnot
    cases hnot

theorem SlotOk.supervisedOnce {stage : SlotStage} (h : SlotOk stage entry) :
    SupervisedOnce entry := by
  cases stage with
  | free => exact h.2.supervisedOnce
  | joined => exact h.2.2.supervisedOnce
  | announced | failed =>
    obtain ⟨-, hoccupied, front, hends⟩ := h
    exact hends.supervisedOnce hoccupied rfl fun hcreated => by cases hcreated
  | created | held =>
    obtain ⟨-, hoccupied, front, last, hends, hthread, -, hjoins⟩ := h
    exact hends.supervisedOnce hoccupied hjoins fun _ => hthread

end Slot

/-- The threads of all slots that have yet to be subtracted from `active_threads`. -/
def GwChannelManager.pendingThreads (manager : GwChannelManager) : Nat :=
  ∑ slot, (manager.entries slot).supervisors.countP SupervisorThread.counted

theorem ManagerSafe.activeThreads {manager : GwChannelManager} (h : ManagerSafe manager) :
    manager.activeThreads = manager.pendingThreads := by
  have hbound : manager.countedThreads ≤ gwMaxChannels := by
    unfold GwChannelManager.countedThreads
    refine (Finset.sum_le_card_nsmul Finset.univ _ 1 fun slot _ => ?_).trans ?_
    · obtain ⟨stage, hok⟩ := h.slots slot
      exact hok.countedThreads_le
    · simp
  have hsmall : manager.countedThreads < 2 ^ 64 := hbound.trans_lt (by decide)
  rw [h.counter, Nat.mod_eq_of_lt hsmall]
  rfl

/-- Calls of the functions that take `lifecycle_lock`. -/
def Calls (manager : GwChannelManager) (body : Lifecycle Unit) : Prop :=
  ∃ call : LifecycleCall, call.arrives manager = true ∧ body = call.body

section Runs

variable {answers : CreateAnswers} {config : GwConfig} {options : GwSupervisorOptions}
  {manager : GwChannelManager} {monitor : Monitor GwChannelManager (Option Errno)}

theorem managerInv_of_reaches
    (hcreate : gwChannelManagerCreate answers config options = .ok manager)
    (hreach : Monitor.Reaches (managerSetting True fun _ => True) Calls manager monitor) :
    Monitor.Inv (managerSetting True fun _ => True) ManagerInv monitor := by
  obtain ⟨-, hvalid, view, hcreating⟩ := gwChannelManagerCreate_created hcreate
  refine Monitor.inv_of_reaches (managerInv_stable True fun _ => True) ?_ ?_
    (hcreating.inv hvalid) hreach
  · rintro state ⟨view, hrests, -⟩
    exact rests_safe hrests
  · rintro world called ⟨call, -, rfl⟩ state hstate
    exact wp_body trivial call hstate

theorem managerSafe_of_reaches
    (hcreate : gwChannelManagerCreate answers config options = .ok manager)
    (hreach : Monitor.Reaches (managerSetting True fun _ => True) Calls manager monitor) :
    ManagerSafe monitor.world := (managerInv_of_reaches hcreate hreach).safe

/-- At most one supervisor for a channel, in every state of every interleaving. -/
theorem manager_supervises_once
    (hcreate : gwChannelManagerCreate answers config options = .ok manager)
    (hreach : Monitor.Reaches (managerSetting True fun _ => True) Calls manager monitor) :
    (∀ slot, SupervisedOnce (monitor.world.entries slot)) ∧
      monitor.world.activeThreads = monitor.world.pendingThreads ∧
      (gwChannelManagerIsFinished monitor.world = true →
        ∀ slot, ∀ thread ∈ (monitor.world.entries slot).supervisors,
          thread.phase ≠ .supervising) := by
  have hsafe := managerSafe_of_reaches hcreate hreach
  have hactive := hsafe.activeThreads
  refine ⟨fun slot => ?_, hactive, fun hfinished slot thread hthread hphase => ?_⟩
  · obtain ⟨stage, hok⟩ := hsafe.slots slot
    exact hok.supervisedOnce
  · rw [gwChannelManagerIsFinished, Bool.and_eq_true, beq_iff_eq, hactive] at hfinished
    have hnone := (Finset.sum_eq_zero_iff.mp hfinished.2) slot (Finset.mem_univ slot)
    have hcounted : thread.counted = true := by simp [SupervisorThread.counted, hphase]
    exact List.countP_eq_zero.mp hnone thread hthread hcounted

theorem manager_supervises_once_started :
    (startedManager.map fun manager =>
        (manager.entries firstSlot).supervisors.countP SupervisorThread.live) = some 1 ∧
      ∀ manager, startedManager = some manager →
        SupervisedOnce (manager.entries firstSlot) ∧
          manager.activeThreads = manager.pendingThreads := by
  refine ⟨by decide +kernel, fun manager h => ?_⟩
  obtain ⟨created, hcreated, hcall⟩ := startedManager_eq h
  have hreach : Monitor.Reaches (managerSetting True fun _ => True) Calls created
      ⟨manager, [], none⟩ :=
    Monitor.Reaches.start.call ⟨.start, rfl, rfl⟩ (runs_callAlone hcall)
  have honce := manager_supervises_once hcreated hreach
  exact ⟨honce.1 firstSlot, honce.2.1⟩

end Runs

end LearnApue.Gateway
