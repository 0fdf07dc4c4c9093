import LearnApue.Gateway.ManagerActs
import LearnApue.Gateway.SupervisedOnce

set_option autoImplicit false

/-!
# Gateway: the restarts a channel shows

`total_restarts` grows within one run of the supervisor, and every thread starts such
a run from zero.  So a channel's snapshots show more and more restarts as long as no
thread starts in a slot that shows some (`totalRestarts_never_decrease`); a restart of
a channel that has recovered once shows none again (`restart_forgets_restarts`).
-/

namespace LearnApue.Gateway

open LearnApue.Foundation

/-! ## One slot -/

/-- The restarts in the last snapshot a thread published. -/
def SupervisorThread.lastRestarts (thread : SupervisorThread) : Nat :=
  (thread.published.getLast?.map (·.totalRestarts)).getD 0

/-- A slot shows at most the restarts its running supervisor last published. -/
def GwChannelEntry.Shown (entry : GwChannelEntry) : Prop :=
  ∀ (index : Nat) (thread : SupervisorThread), entry.supervisors[index]? = some thread →
    thread.phase = .supervising → entry.snapshot.totalRestarts ≤ thread.lastRestarts

/-- What a supervisor of the slot runs on. -/
structure GwChannelEntry.Runnable (entry : GwChannelEntry) : Prop where
  policy : PolicyUsable entry.runConfig.defaults
  enabled : entry.channel.enabled = true
  binary : entry.options.ffmpegBinary.getD [] ≠ []

/-- A thread of the slot enters `gw_supervisor_run`. -/
def Enters (before after : GwChannelEntry) : Prop :=
  ∃ (index : Nat) (thread : SupervisorThread), after.supervisors[index]? = some thread ∧
    thread.phase = .supervising ∧ ∀ earlier : SupervisorThread,
      before.supervisors[index]? = some earlier → earlier.phase ≠ .supervising

/-- The slot's channel and its configuration stay. -/
structure SameConfiguration (before after : GwChannelEntry) : Prop where
  occupied : after.occupied = before.occupied
  generation : after.generation = before.generation

/-- What is known of a slot's counts. -/
structure SlotCounts (entry : GwChannelEntry) : Prop where
  runnable : entry.occupied = true → entry.Runnable
  shown : entry.Shown

/-- Threads keep what they published. -/
def SamePublished (before after : GwChannelEntry) : Prop :=
  ∀ (index : Nat) (earlier thread : SupervisorThread), before.supervisors[index]? = some earlier →
    after.supervisors[index]? = some thread → thread.published = earlier.published

section Slot

variable {before after : GwChannelEntry} {index : Nat}

/-- A supervisor runs on the slot's configuration and options. -/
theorem GwChannelEntry.Runnable.congr (h : before.Runnable)
    (hrun : after.runConfig = before.runConfig) (hoptions : after.options = before.options) :
    after.Runnable := by
  refine ⟨?_, ?_, ?_⟩
  · rw [hrun]
    exact h.policy
  · rw [GwChannelEntry.channel, hrun]
    exact h.enabled
  · rw [hoptions]
    exact h.binary

theorem samePublished_of_eq (h : after.supervisors = before.supervisors) :
    SamePublished before after := by
  intro index earlier thread hearlier hthread
  rw [h, hearlier, Option.some.injEq] at hthread
  rw [hthread]

theorem samePublished_changeThread {change : SupervisorThread → SupervisorThread}
    (h : ∀ thread, (change thread).published = thread.published) :
    SamePublished before (before.changeThread index change) := by
  intro other earlier thread hearlier hthread
  simp only [GwChannelEntry.changeThread, List.getElem?_modify, hearlier, Option.map_eq_map,
    Option.map_some, Option.some.injEq] at hthread
  rw [← hthread]
  split
  · exact h earlier
  · rfl

theorem RunAct.samePublished (h : RunAct before after) : SamePublished before after := by
  cases h with
  | control => exact samePublished_of_eq rfl
  | announce =>
    intro index earlier thread hearlier hthread
    have hlt := (List.getElem?_eq_some_iff.mp hearlier).1
    rw [GwChannelEntry.announced, List.getElem?_append_left hlt, hearlier,
      Option.some.injEq] at hthread
    rw [hthread]
  | create answer =>
    cases answer with
    | none =>
      exact @samePublished_changeThread before (before.supervisors.length - 1)
        (fun thread => { thread with phase := .supervising }) fun _ => rfl
    | some errno => exact samePublished_changeThread fun _ => rfl
  | retract => exact samePublished_changeThread fun _ => rfl
  | join joined =>
    unfold GwChannelEntry.join at joined
    split at joined
    · cases joined
      exact samePublished_of_eq rfl
    · split at joined
      · cases joined
        exact samePublished_of_eq rfl
      · split at joined
        · cases joined
          exact samePublished_changeThread fun _ => rfl
        · cases joined

/-- A slot that shows the same keeps showing no more than was published, unless a thread
enters while it shows restarts. -/
theorem GwChannelEntry.Shown.keep (h : before.Shown) (hsnapshot : after.snapshot = before.snapshot)
    (hpublished : SamePublished before after)
    (hfresh : Enters before after → before.snapshot.totalRestarts = 0) : after.Shown := by
  intro index thread hfound hphase
  rw [hsnapshot]
  by_cases hbefore : ∃ earlier, before.supervisors[index]? = some earlier ∧
      earlier.phase = .supervising
  · obtain ⟨earlier, hearlier, hrunning⟩ := hbefore
    have hshown := h index earlier hearlier hrunning
    rw [SupervisorThread.lastRestarts, hpublished index earlier thread hearlier hfound]
    exact hshown
  · rw [hfresh ⟨index, thread, hfound, hphase, fun earlier hearlier hrunning =>
      hbefore ⟨earlier, hearlier, hrunning⟩⟩]
    exact Nat.zero_le _

/-- What a supervisor publishes next shows no fewer restarts. -/
theorem GwChannelEntry.Publishes.lastRestarts_le {entry : GwChannelEntry}
    {thread : SupervisorThread} {snapshot : GwChannelSnapshot} (hrunnable : entry.Runnable)
    (h : entry.Publishes (thread.published ++ [snapshot])) :
    thread.lastRestarts ≤ snapshot.totalRestarts := by
  obtain ⟨strtod, rounds, hmonotone, hbefore⟩ := h
  have hgrow := (publications_grow strtod hrunnable.policy hrunnable.enabled hrunnable.binary rounds
    hmonotone).sublist hbefore.sublist
  obtain ⟨-, -, hlast⟩ := List.pairwise_append.mp hgrow
  unfold SupervisorThread.lastRestarts
  cases hcase : thread.published.getLast? with
  | none => exact Nat.zero_le _
  | some last =>
    exact hlast last (List.mem_of_getLast? hcase) snapshot (List.mem_singleton.mpr rfl)

theorem SlotOk.occupied_of_live {stage : SlotStage} {entry : GwChannelEntry}
    (h : SlotOk stage entry) {thread : SupervisorThread}
    (hfound : entry.supervisors[index]? = some thread) (hlive : thread.live = true) :
    entry.occupied = true := by
  obtain ⟨hcreated | hheld, -⟩ := h.owns_of_live hfound hlive
  · rw [hcreated] at h
    exact h.2.1
  · rw [hheld] at h
    exact h.2.1

/-- After a publication the slot shows what its running supervisor, the only one, just
published. -/
theorem SlotOk.shown_publication {stage : SlotStage} {entry : GwChannelEntry}
    (hok : SlotOk stage entry) {thread : SupervisorThread}
    (hfound : entry.supervisors[index]? = some thread) (hphase : thread.phase = .supervising)
    (snapshot : GwChannelSnapshot) (generation : Nat) :
    GwChannelEntry.Shown { entry.changeThread index fun thread =>
        { thread with published := thread.published ++ [snapshot] } with
      snapshot := { snapshot with configurationGeneration := generation } } := by
  have hrunning : ∀ {thread : SupervisorThread}, thread.phase = .supervising →
      thread.live = true := fun h => by simp [SupervisorThread.live, h]
  obtain ⟨-, front, hends, -, hindex, -⟩ := hok.owns_of_live hfound (hrunning hphase)
  intro other last hlast hlastPhase
  simp only [GwChannelEntry.changeThread, List.getElem?_modify] at hlast
  obtain ⟨earlier, hearlier, hchanged⟩ := Option.map_eq_some_iff.mp hlast
  have hearlierPhase : earlier.phase = .supervising := by
    rw [← hlastPhase, ← hchanged]
    split <;> rfl
  obtain ⟨hother, -⟩ := hends.live hearlier (hrunning hearlierPhase)
  rw [if_pos (hindex.trans hother.symm)] at hchanged
  rw [← hchanged]
  simp [SupervisorThread.lastRestarts]

/-- A thread's own step, other than a publication, shows nothing new; a publication
shows no fewer restarts. -/
theorem OwnStep.counts {stage : SlotStage} (hok : SlotOk stage before) (h : SlotCounts before)
    (hstep : OwnStep before after)
    (hfresh : Enters before after → before.snapshot.totalRestarts = 0) :
    SlotCounts after ∧ before.snapshot.totalRestarts ≤ after.snapshot.totalRestarts := by
  have hkept := hstep.kept
  have hrunnable : after.occupied = true → after.Runnable := by
    intro hoccupied
    have hbefore := h.runnable (hkept.occupied ▸ hoccupied)
    exact hbefore.congr hkept.runConfig hkept.options
  cases hstep with
  | finishes found phase =>
    exact ⟨⟨hrunnable, h.shown.keep rfl (samePublished_changeThread fun _ => rfl) hfresh⟩, le_refl _⟩
  | @thread index after step =>
    cases step with
    | @returns thread result found phase =>
      have hsame := @samePublished_changeThread before index
        (fun thread => { thread with phase := .returned }) fun _ => rfl
      exact ⟨⟨hrunnable, h.shown.keep rfl hsame hfresh⟩, le_refl _⟩
    | @stores thread found phase =>
      have hsame := @samePublished_changeThread before index
        (fun thread => { thread with phase := .stored }) fun _ => rfl
      exact ⟨⟨hrunnable, h.shown.keep rfl hsame hfresh⟩, le_refl _⟩
    | @observes thread snapshot found phase publishes =>
      have hlive : thread.live = true := by simp [SupervisorThread.live, phase]
      have hbefore := h.runnable (hok.occupied_of_live found hlive)
      have hgrows := publishes.lastRestarts_le hbefore
      exact ⟨⟨hrunnable, hok.shown_publication found phase snapshot _⟩,
        (h.shown index thread found phase).trans hgrows⟩

/-- An act shows nothing new, unless it configures the slot. -/
theorem SetupAct.counts {options : GwSupervisorOptions} (h : SlotCounts before)
    (hbinary : options.ffmpegBinary.getD [] ≠ []) (hact : SetupAct options before after)
    (hfresh : Enters before after → before.snapshot.totalRestarts = 0) :
    SlotCounts after ∧
      (SameConfiguration before after →
        before.snapshot.totalRestarts ≤ after.snapshot.totalRestarts) := by
  cases hact with
  | run act =>
    have hsame := act.setup
    refine ⟨⟨fun hoccupied => ?_, h.shown.keep hsame.snapshot act.samePublished hfresh⟩,
      fun _ => by rw [hsame.snapshot]⟩
    have hbefore := h.runnable (hsame.occupied ▸ hoccupied)
    exact hbefore.congr hsame.runConfig hsame.options
  | configure accepted mem enabled =>
    have hpolicy := policyUsable_of_accepted accepted
    refine ⟨⟨fun _ => ⟨hpolicy, enabled, hbinary⟩, ?_⟩, fun hsame => ?_⟩
    · intro index thread _ _
      exact Nat.zero_le _
    · have hoccupied := hsame.occupied
      have hgeneration := hsame.generation
      simp only [configureEntry] at hoccupied hgeneration
      rw [← hoccupied, if_pos rfl] at hgeneration
      omega
  | release =>
    refine ⟨⟨fun hoccupied => ?_, h.shown.keep rfl (samePublished_of_eq rfl) hfresh⟩,
      fun _ => le_refl _⟩
    cases hoccupied

end Slot

/-! ## The manager -/

/-- No thread enters in the slot while it shows restarts. -/
def StartsFresh (slot : Fin gwMaxChannels) (before after : GwChannelManager) : Prop :=
  Enters (before.entries slot) (after.entries slot) →
    (before.entries slot).snapshot.totalRestarts = 0

/-- What is known of the counts of a slot. -/
structure RestartInv (slot : Fin gwMaxChannels) (manager : GwChannelManager) : Prop where
  binary : manager.callerOptions.ffmpegBinary.getD [] ≠ []
  counts : SlotCounts (manager.entries slot)

section Manager

variable {manager before after : GwChannelManager} {slot : Fin gwMaxChannels}

/-- Interference, an act, or no change: the counts of a slot stay right, and grow while
its configuration stays. -/
theorem RestartInv.step (hsafe : ManagerSafe before) (h : RestartInv slot before)
    (hstep : after = before ∨ Interferes True before after ∨ LifecycleAct True before after)
    (hfresh : StartsFresh slot before after) :
    RestartInv slot after ∧ (SameConfiguration (before.entries slot) (after.entries slot) →
      (before.entries slot).snapshot.totalRestarts ≤
        (after.entries slot).snapshot.totalRestarts) := by
  rcases hstep with rfl | hinterferes | hact
  · exact ⟨h, fun _ => le_refl _⟩
  · have hoptions : after.callerOptions = before.callerOptions := by
      cases hinterferes <;> rfl
    rcases interferes_entry hinterferes slot with hkept | hown
    · exact ⟨⟨hoptions ▸ h.binary, hkept ▸ h.counts⟩, fun _ => by rw [hkept]⟩
    · obtain ⟨stage, hok⟩ := hsafe.slots slot
      obtain ⟨hcounts, hle⟩ := hown.counts hok h.counts hfresh
      exact ⟨⟨hoptions ▸ h.binary, hcounts⟩, fun _ => hle⟩
  · have hbinary := hact.callerOptions ▸ h.binary
    rcases hact.slots slot with hkept | hsetup
    · exact ⟨⟨hbinary, hkept ▸ h.counts⟩, fun _ => by rw [hkept]⟩
    · obtain ⟨hcounts, hle⟩ := hsetup.counts h.counts h.binary hfresh
      exact ⟨⟨hbinary, hcounts⟩, hle⟩

/-- A created manager shows no restarts. -/
theorem Creating.restartInv {config : GwConfig} {options : GwSupervisorOptions} {view : ManagerView}
    (h : Creating config options view manager) (hbinary : options.ffmpegBinary.getD [] ≠ [])
    (hvalid : gwConfigValidate config = .ok ()) : RestartInv slot manager := by
  refine ⟨h.callerOptions ▸ hbinary, fun hoccupied => ?_, ?_⟩
  · have hrun := h.assertion.run hoccupied
    obtain ⟨channel, -, henabled, hruns⟩ := h.placedFrom slot _ hrun
    refine ⟨?_, ?_, ?_⟩
    · rw [hruns.policy]
      exact policyUsable_of_accepted hvalid
    · have hchannel : (manager.entries slot).channel = channel := hruns.channel
      rw [hchannel]
      exact henabled
    · rw [h.binary slot hoccupied]
      exact hbinary
  · intro index thread hfound hphase
    rcases (h.assertion.slots slot).2.ended thread (List.mem_of_getElem? hfound) with
      ⟨hover, -⟩ | ⟨hover, -⟩
    · rw [hphase] at hover
      cases hover
    · rw [hphase] at hover
      cases hover

end Manager

/-! ## Runs -/

/-- The steps of the manager's lock and its callers, each of which relates the worlds
so. -/
abbrev ManagerRun (Q : GwChannelManager → GwChannelManager → Prop) :
    Monitor GwChannelManager (Option Errno) → Monitor GwChannelManager (Option Errno) → Prop :=
  Monitor.RunsBy (managerSetting True fun _ => True) Calls Q

section Runs

variable {answers : CreateAnswers} {config : GwConfig} {options : GwSupervisorOptions}
  {manager : GwChannelManager} {monitor later : Monitor GwChannelManager (Option Errno)}
  {slot : Fin gwMaxChannels}

theorem calls_acts (world : GwChannelManager) (called : Lifecycle Unit) (h : Calls world called) :
    called.Acts (LifecycleAct True) := by
  obtain ⟨call, -, rfl⟩ := h
  exact call.body_acts

/-- The counts of a slot are right in every run that starts its supervisors afresh only. -/
theorem restartInv_of_run
    (hcreate : gwChannelManagerCreate answers config options = .ok manager)
    (hrun : ManagerRun (StartsFresh slot) ⟨manager, [], none⟩ monitor) :
    RestartInv slot monitor.world ∧ Monitor.AllAct (LifecycleAct True) monitor := by
  induction hrun with
  | refl =>
    obtain ⟨hbinary, hvalid, view, hcreating⟩ := gwChannelManagerCreate_created hcreate
    exact ⟨hcreating.restartInv hbinary hvalid, ⟨by simp, by simp⟩⟩
  | tail hbefore hstep ih =>
    obtain ⟨hinv, hacts⟩ := ih
    have hsafe := managerSafe_of_reaches hcreate (Monitor.Reaches.start.runs hbefore)
    obtain ⟨hacts', hworld⟩ := hacts.step calls_acts hstep.1
    exact ⟨(hinv.step hsafe hworld hstep.2).1, hacts'⟩

/-- In every run in which no thread enters in a slot while it shows restarts, the restarts
that the slot shows never decrease while its configuration stays. -/
theorem totalRestarts_never_decrease
    (hcreate : gwChannelManagerCreate answers config options = .ok manager)
    (hrun : ManagerRun (StartsFresh slot) ⟨manager, [], none⟩ monitor)
    (hmore : ManagerRun
      (fun before after => StartsFresh slot before after ∧
        SameConfiguration (before.entries slot) (after.entries slot)) monitor later) :
    (monitor.world.entries slot).snapshot.totalRestarts ≤
      (later.world.entries slot).snapshot.totalRestarts := by
  induction hmore with
  | refl => exact le_refl _
  | tail hbetween hstep ih =>
    have hfresh : ManagerRun (StartsFresh slot) ⟨manager, [], none⟩ _ :=
      hrun.trans (Relation.ReflTransGen.mono (fun _ _ h => ⟨h.1, h.2.1⟩) _ _ hbetween)
    obtain ⟨hinv, hacts⟩ := restartInv_of_run hcreate hfresh
    have hsafe := managerSafe_of_reaches hcreate (Monitor.Reaches.start.runs hfresh)
    have hworld := (hacts.step calls_acts hstep.1).2
    exact ih.trans ((hinv.step hsafe hworld hstep.2.1).2 hstep.2.2)

end Runs

/-! ## A channel that recovered once -/

/-- A slot after `manager_observe` of a snapshot, by its thread with this index. -/
def GwChannelEntry.publish (index : Nat) (entry : GwChannelEntry) (snapshot : GwChannelSnapshot) :
    GwChannelEntry :=
  { entry.changeThread index fun thread =>
      { thread with published := thread.published ++ [snapshot] } with
    snapshot := { snapshot with configurationGeneration := entry.generation } }

/-- A slot whose thread with this index has returned. -/
def GwChannelEntry.endThread (index : Nat) (entry : GwChannelEntry) : GwChannelEntry :=
  { entry.changeThread index fun thread => { thread with phase := .returned } with result := 0 }

/-- A slot whose thread with this index has stored that it does not run any more. -/
def GwChannelEntry.storeThread (index : Nat) (entry : GwChannelEntry) : GwChannelEntry :=
  { entry.changeThread index fun thread => { thread with phase := .stored } with
    threadRunning := false }

/-- The manager once a thread has returned and is over. -/
def GwChannelManager.endThread (slot : Fin gwMaxChannels) (index : Nat)
    (manager : GwChannelManager) : GwChannelManager :=
  let stored := ((manager.entries slot).endThread index).storeThread index
  { manager.setEntry slot (stored.changeThread index fun thread =>
      { thread with phase := .finished }) with
    activeThreads := (manager.activeThreads + (2 ^ 64 - 1)) % 2 ^ 64 }

section Threads

variable {manager before after : GwChannelManager} {slot : Fin gwMaxChannels} {index : Nat}
  {entry : GwChannelEntry} {thread : SupervisorThread}

theorem changeThread_found {change : SupervisorThread → SupervisorThread}
    (hfound : entry.supervisors[index]? = some thread) :
    (entry.changeThread index change).supervisors[index]? = some (change thread) := by
  rw [GwChannelEntry.changeThread, List.getElem?_modify_eq, hfound]
  rfl

theorem setEntry_setEntry (entry' : GwChannelEntry) :
    (manager.setEntry slot entry).setEntry slot entry' = manager.setEntry slot entry' := by
  simp only [GwChannelManager.setEntry, Function.update_idem]

/-- A running supervisor publishes one snapshot after another. -/
theorem later_publish {snapshots : List GwChannelSnapshot}
    (hfound : entry.supervisors[index]? = some thread) (hphase : thread.phase = .supervising)
    (hpublishes : entry.Publishes (thread.published ++ snapshots)) :
    (managerSetting True fun _ => True).Later (manager.setEntry slot entry)
      (manager.setEntry slot (snapshots.foldl (GwChannelEntry.publish index) entry)) := by
  induction snapshots generalizing entry thread with
  | nil => exact .refl
  | cons snapshot rest ih =>
    have hsplit : thread.published ++ snapshot :: rest = thread.published ++ [snapshot] ++ rest := by
      rw [List.append_assoc, List.singleton_append]
    rw [hsplit] at hpublishes
    have hhead : entry.Publishes (thread.published ++ [snapshot]) := by
      obtain ⟨strtod, rounds, hmonotone, hbefore⟩ := hpublishes
      exact ⟨strtod, rounds, hmonotone, (List.prefix_append _ _).trans hbefore⟩
    have hstep : ThreadStep ((manager.setEntry slot entry).entries slot) index
        (entry.publish index snapshot) := by
      rw [setEntry_self]
      exact .observes snapshot hfound hphase hhead
    have hnext := @Interferes.thread True _ slot _ _ hstep
    rw [setEntry_setEntry] at hnext
    have hfound' : (entry.publish index snapshot).supervisors[index]? =
        some { thread with published := thread.published ++ [snapshot] } :=
      @changeThread_found _ _ _ (fun thread =>
        { thread with published := thread.published ++ [snapshot] }) hfound
    exact Relation.ReflTransGen.head hnext (ih hfound' hphase hpublishes)

/-- A running supervisor can return at any time. -/
theorem later_endThread {stoppable : Prop} {answers : Option Errno → Prop}
    (hfound : (manager.entries slot).supervisors[index]? = some thread)
    (hphase : thread.phase = .supervising) :
    (managerSetting stoppable answers).Later manager (manager.endThread slot index) := by
  let returned := (manager.entries slot).endThread index
  have hreturned : returned.supervisors[index]? = some { thread with phase := .returned } :=
    @changeThread_found _ _ _ (fun thread => { thread with phase := .returned }) hfound
  have hstored : (returned.storeThread index).supervisors[index]? =
      some { thread with phase := .stored } :=
    @changeThread_found _ returned { thread with phase := .returned }
      (fun thread => { thread with phase := .stored }) hreturned
  have hfirst : Interferes stoppable manager (manager.setEntry slot returned) :=
    .thread slot (.returns 0 hfound hphase)
  have hsecond : Interferes stoppable (manager.setEntry slot returned)
      (manager.setEntry slot (returned.storeThread index)) := by
    have hstep : ThreadStep ((manager.setEntry slot returned).entries slot) index
        (returned.storeThread index) := by
      rw [setEntry_self]
      exact .stores hreturned rfl
    have hnext := @Interferes.thread stoppable _ slot _ _ hstep
    rw [setEntry_setEntry] at hnext
    exact hnext
  have hthird : Interferes stoppable (manager.setEntry slot (returned.storeThread index))
      (manager.endThread slot index) := by
    have hfinal : ((manager.setEntry slot (returned.storeThread index)).entries slot).supervisors[index]?
        = some { thread with phase := .stored } := by
      rw [setEntry_self]
      exact hstored
    have hnext := @Interferes.finishes stoppable _ slot _ _ hfinal rfl
    rw [setEntry_self, setEntry_setEntry] at hnext
    exact hnext
  exact ((Relation.ReflTransGen.single hfirst).tail hsecond).tail hthird

/-- A change that starts no thread. -/
theorem not_enters_changeThread {change : SupervisorThread → SupervisorThread}
    (h : ∀ thread, entry.supervisors[index]? = some thread →
      (change thread).phase = .supervising → thread.phase = .supervising) :
    ¬ Enters entry (entry.changeThread index change) := by
  rintro ⟨other, last, hlast, hphase, hnone⟩
  simp only [GwChannelEntry.changeThread, List.getElem?_modify] at hlast
  obtain ⟨earlier, hearlier, hchanged⟩ := Option.map_eq_some_iff.mp hlast
  refine hnone earlier hearlier ?_
  by_cases hsame : index = other
  · rw [if_pos hsame] at hchanged
    rw [← hchanged] at hphase
    exact h earlier (hsame ▸ hearlier) hphase
  · rw [if_neg hsame] at hchanged
    rw [hchanged]
    exact hphase

theorem OwnStep.not_enters {before after : GwChannelEntry} (h : OwnStep before after) :
    ¬ Enters before after := by
  cases h with
  | finishes found phase => exact not_enters_changeThread fun _ _ hphase => by cases hphase
  | @thread index after step =>
    cases step with
    | returns result found phase =>
      exact @not_enters_changeThread index before
        (fun thread => { thread with phase := .returned }) fun _ _ hphase => by cases hphase
    | stores found phase =>
      exact @not_enters_changeThread index before
        (fun thread => { thread with phase := .stored }) fun _ _ hphase => by cases hphase
    | observes snapshot found phase publishes =>
      exact @not_enters_changeThread index before
        (fun thread => { thread with published := thread.published ++ [snapshot] })
        fun _ _ hphase => hphase

theorem interferes_startsFresh (h : Interferes True before after) :
    StartsFresh slot before after := by
  intro henters
  rcases interferes_entry h slot with hkept | hown
  · rw [hkept] at henters
    obtain ⟨index, thread, hfound, hphase, hnone⟩ := henters
    exact absurd hphase (hnone thread hfound)
  · exact absurd henters hown.not_enters

theorem interferes_sameConfiguration (slot : Fin gwMaxChannels) (h : Interferes True before after) :
    SameConfiguration (before.entries slot) (after.entries slot) := by
  rcases interferes_entry h slot with hkept | hown
  · rw [hkept]
    exact ⟨rfl, rfl⟩
  · exact ⟨hown.kept.occupied, hown.kept.generation⟩

end Threads

/-- What a supervisor of the slot publishes in a run of these rounds. -/
def GwChannelEntry.snapshotsOf (entry : GwChannelEntry) (rounds : List RoundAnswers) :
    List GwChannelSnapshot :=
  publications (runLog (gwSupervisorRun noNumber entry.runConfig entry.channel entry.options rounds))

/-- The slot once its thread with this index has published all of it. -/
def GwChannelManager.observed (rounds : List RoundAnswers) (index : Nat)
    (manager : GwChannelManager) : GwChannelManager :=
  let entry := manager.entries firstSlot
  manager.setEntry firstSlot ((entry.snapshotsOf rounds).foldl (GwChannelEntry.publish index) entry)

/-- No slot shows a restart. -/
def GwChannelManager.noRestarts (manager : GwChannelManager) : Bool :=
  slots.all fun slot => (manager.entries slot).snapshot.totalRestarts == 0

/-- The manager once it is started, when no slot showed a restart on the way. -/
def freshManager : Option GwChannelManager :=
  createdManager.toOption.bind fun manager =>
    (LifecycleCall.start.body.evaluateIn GwChannelManager.noRestarts none manager).map Prod.snd

/-- The restarts the first slot shows. -/
def GwChannelManager.shownRestarts (manager : GwChannelManager) : Nat :=
  (manager.entries firstSlot).snapshot.totalRestarts

/-- What its supervisor needs to publish these rounds, decided. -/
def GwChannelManager.canObserve (rounds : List RoundAnswers) (index : Nat)
    (manager : GwChannelManager) : Bool :=
  (manager.entries firstSlot).supervisors[index]? = some ⟨.supervising, 0, []⟩ &&
    decide (ClockMonotone (runLog (gwSupervisorRun noNumber (manager.entries firstSlot).runConfig
      (manager.entries firstSlot).channel (manager.entries firstSlot).options rounds)))

section Recovered

variable {manager : GwChannelManager} {rounds : List RoundAnswers} {index : Nat}

theorem later_observed (h : manager.canObserve rounds index = true) :
    (managerSetting True fun _ => True).Later manager (manager.observed rounds index) := by
  obtain ⟨hfound, hmonotone⟩ := Bool.and_eq_true_iff.mp h
  have hlater := @later_publish manager firstSlot index (manager.entries firstSlot) _
    ((manager.entries firstSlot).snapshotsOf rounds) (of_decide_eq_true hfound) rfl
    ⟨noNumber, rounds, of_decide_eq_true hmonotone, List.prefix_refl _⟩
  have hsame : manager.setEntry firstSlot (manager.entries firstSlot) = manager := by
    simp only [GwChannelManager.setEntry, Function.update_eq_self]
  rw [hsame] at hlater
  exact hlater

theorem noRestarts_startsFresh (before after : GwChannelManager)
    (h : before.noRestarts = true) : StartsFresh firstSlot before after := by
  intro _
  exact beq_iff_eq.mp (List.all_eq_true.mp h firstSlot (List.mem_finRange firstSlot))

theorem run_fresh (h : freshManager = some manager) :
    ∃ created, createdManager = .ok created ∧
      ManagerRun (StartsFresh firstSlot) ⟨created, [], none⟩ ⟨manager, [], none⟩ := by
  obtain ⟨created, hcreated, hstart⟩ := Option.bind_eq_some_iff.mp h
  obtain ⟨⟨value, after⟩, heq, rfl⟩ := Option.map_eq_some_iff.mp hstart
  exact ⟨created, createdManager_ok hcreated,
    Monitor.RunsBy.evaluate noRestarts_startsFresh trivial ⟨.start, rfl, rfl⟩ heq⟩

theorem totalRestarts_never_decrease_recovered :
    (freshManager.map fun manager =>
        (manager.shownRestarts, (manager.observed restartedOnce 0).shownRestarts)) = some (0, 1) ∧
      ∀ manager, freshManager = some manager →
        manager.shownRestarts ≤ (manager.observed restartedOnce 0).shownRestarts := by
  refine ⟨by decide +kernel, fun manager h => ?_⟩
  have hobserve : freshManager.map (GwChannelManager.canObserve restartedOnce 0) = some true := by
    decide +kernel
  rw [h, Option.map_some, Option.some.injEq] at hobserve
  obtain ⟨created, hcreated, hrun⟩ := run_fresh h
  have hmore : ManagerRun
      (fun before after => StartsFresh firstSlot before after ∧
        SameConfiguration (before.entries firstSlot) (after.entries firstSlot))
      ⟨manager, [], none⟩ ⟨manager.observed restartedOnce 0, [], none⟩ :=
    Monitor.RunsBy.interference
      (fun before after hstep => ⟨interferes_startsFresh hstep, interferes_sameConfiguration _ hstep⟩)
      (later_observed hobserve)
  exact totalRestarts_never_decrease hcreated hrun hmore

/-- What runs a slot leaves the setup of every slot. -/
theorem OnSlot.sameSetup {slot : Fin gwMaxChannels} (before after : GwChannelManager)
    (h : OnSlot RunAct slot before after) (other : Fin gwMaxChannels) :
    SameSetup (before.entries other) (after.entries other) := by
  by_cases hother : other = slot
  · subst hother
    rcases h.here with hkept | hrun
    · rw [hkept]
      exact ⟨rfl, rfl, rfl, rfl, rfl, rfl⟩
    · exact hrun.setup
  · rw [h.others other hother]
    exact ⟨rfl, rfl, rfl, rfl, rfl, rfl⟩

/-- A restart configures nothing. -/
theorem restartChannel_acts (channelId : Bytes) :
    (LifecycleCall.restartChannel channelId).body.Acts fun before after =>
      ∀ slot, SameSetup (before.entries slot) (after.entries slot) := by
  have hplain := @plainClass_acts (fun before after : GwChannelManager =>
    ∀ slot, SameSetup (before.entries slot) (after.entries slot))
    fun _ _ => ⟨rfl, rfl, rfl, rfl, rfl, rfl⟩
  refine hplain.bind (hplain.command (fun slot => ?_)
    (gwChannelManagerRestartChannel_body channelId)) fun _ => hplain.pure _
  exact { hplain with
    start := startEntry_acts.mono OnSlot.sameSetup
    stop := stopEntry_acts.mono OnSlot.sameSetup
    reap := reapEntry_acts.mono OnSlot.sameSetup }

/-- The first slot's supervisor ends, and the channel is restarted. -/
def GwChannelManager.restartedFirst (manager : GwChannelManager) : Option GwChannelManager :=
  callAlone none (.restartChannel (ascii "front")) (manager.endThread firstSlot 0)

/-- What the run below needs, decided, and the restarts it shows. -/
def restartReport (manager : GwChannelManager) : Option (Bool × Bool × Nat × Bool × Nat) :=
  let recovered := manager.observed restartedOnce 0
  recovered.restartedFirst.map fun restarted =>
    (manager.canObserve restartedOnce 0,
      (recovered.entries firstSlot).supervisors.map (·.phase) = [.supervising],
      recovered.shownRestarts, restarted.canObserve [] 1, (restarted.observed [] 1).shownRestarts)

/-- A channel that has recovered once is restarted, and shows no restart any more. -/
theorem restart_forgets_restarts :
    ∃ created manager restarted, createdManager = .ok created ∧
      ManagerRun (fun _ _ => True) ⟨created, [], none⟩ ⟨manager, [], none⟩ ∧
      manager.restartedFirst = some restarted ∧
      ManagerRun (fun before after =>
          SameConfiguration (before.entries firstSlot) (after.entries firstSlot))
        ⟨manager, [], none⟩ ⟨restarted.observed [] 1, [], none⟩ ∧
      manager.shownRestarts = 1 ∧ (restarted.observed [] 1).shownRestarts = 0 := by
  have hreport : freshManager.bind restartReport = some (true, true, 1, true, 0) := by
    decide +kernel
  obtain ⟨fresh, hfresh, hreport⟩ := Option.bind_eq_some_iff.mp hreport
  obtain ⟨restarted, hrestarted, hreport⟩ := Option.map_eq_some_iff.mp hreport
  simp only [Prod.mk.injEq, decide_eq_true_eq] at hreport
  obtain ⟨hobserve, hrunning, hshown, hagain, hforgotten⟩ := hreport
  obtain ⟨created, hcreated, hrun⟩ := run_fresh hfresh
  let recovered := fresh.observed restartedOnce 0
  have hbefore : ManagerRun (fun _ _ => True) ⟨created, [], none⟩ ⟨recovered, [], none⟩ :=
    (Relation.ReflTransGen.mono (fun _ _ h => ⟨h.1, trivial⟩) _ _ hrun).trans
      (Monitor.RunsBy.interference (fun _ _ _ => trivial) (later_observed hobserve))
  obtain ⟨thread, hthreads, hphase⟩ := List.map_eq_singleton_iff.mp hrunning
  have hfound : (recovered.entries firstSlot).supervisors[0]? = some thread := by
    rw [hthreads]
    rfl
  let keeps : GwChannelManager → GwChannelManager → Prop := fun before after =>
    SameConfiguration (before.entries firstSlot) (after.entries firstSlot)
  have hinterferes : ∀ before after, Interferes True before after → keeps before after :=
    fun _ _ => interferes_sameConfiguration firstSlot
  -- the supervisor ends, the channel is restarted, and the next supervisor publishes
  have hends : ManagerRun keeps ⟨recovered, [], none⟩ ⟨recovered.endThread firstSlot 0, [], none⟩ :=
    Monitor.RunsBy.interference hinterferes (later_endThread hfound hphase)
  have hcall : ManagerRun keeps ⟨recovered.endThread firstSlot 0, [], none⟩ ⟨restarted, [], none⟩ :=
    Monitor.RunsBy.call (fun _ => ⟨rfl, rfl⟩) hinterferes
      (fun _ _ h => ⟨(h firstSlot).occupied, (h firstSlot).generation⟩)
      ⟨.restartChannel (ascii "front"), rfl, rfl⟩ (runs_callAlone hrestarted) (restartChannel_acts _)
  have hpublishes : ManagerRun keeps ⟨restarted, [], none⟩ ⟨restarted.observed [] 1, [], none⟩ :=
    Monitor.RunsBy.interference hinterferes (later_observed hagain)
  exact ⟨created, recovered, restarted, hcreated, hbefore, hrestarted,
    (hends.trans hcall).trans hpublishes, hshown, hforgotten⟩

end Recovered

end LearnApue.Gateway
