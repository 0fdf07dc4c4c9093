import LearnApue.Foundation.Liberal
import LearnApue.Gateway.RestartCounts
import LearnApue.Gateway.SupervisorReturns

set_option autoImplicit false

/-!
# Gateway: what an idle slot shows

`ShowsIdle` says of a slot at any time that it shows a stopped or failed channel
without a process unless a supervisor runs in it, and `SlotIdle` adds between two
sections that `thread_running` tells of a running thread.  Every section keeps both,
as long as a thread that returns has completed a run of the supervisor.
-/

namespace LearnApue.Gateway

open LearnApue.Foundation

/-! ## One slot -/

/-- A supervisor of the slot is inside `gw_supervisor_run`. -/
def GwChannelEntry.Supervising (entry : GwChannelEntry) : Prop :=
  ∃ (index : Nat) (thread : SupervisorThread), entry.supervisors[index]? = some thread ∧
    thread.phase = .supervising

/-- A supervisor of the slot has not cleared `thread_running` yet. -/
def GwChannelEntry.Running (entry : GwChannelEntry) : Prop :=
  ∃ (index : Nat) (thread : SupervisorThread), entry.supervisors[index]? = some thread ∧
    (thread.phase = .supervising ∨ thread.phase = .returned)

/-- The slot shows the state and the process of what the thread published last. -/
def GwChannelEntry.Shows (entry : GwChannelEntry) (thread : SupervisorThread) : Prop :=
  ∃ last, thread.published.getLast? = some last ∧ entry.snapshot.state = last.state ∧
    entry.snapshot.processKind = last.processKind

/-- The snapshots are all that a run of the slot's supervisor publishes up to its return. -/
def GwChannelEntry.Completes (entry : GwChannelEntry) (snapshots : List GwChannelSnapshot) :
    Prop :=
  ∃ (strtod : Strtod) (rounds : List RoundAnswers) (code : Int) (state : SupervisorState),
    gwSupervisorRun strtod entry.runConfig entry.channel entry.options rounds =
      .leave (code, state) ∧ snapshots = publications state.log

/-- A thread that leaves `gw_supervisor_run` has published all of a run that returned. -/
def ReturnsComplete (before after : GwChannelEntry) : Prop :=
  ∀ (index : Nat) (earlier thread : SupervisorThread), before.supervisors[index]? = some earlier →
    after.supervisors[index]? = some thread → earlier.phase = .supervising →
    thread.phase ≠ .supervising → before.Completes earlier.published

/-- An occupied slot has what its supervisor runs on, and is observed. -/
def GwChannelEntry.Equipped (entry : GwChannelEntry) : Prop :=
  entry.occupied = true → entry.Runnable ∧ entry.options.observer = true

/-- What a slot shows at any time: a startable channel unless a supervisor is running,
and what that supervisor published last as soon as it has published. -/
structure ShowsIdle (entry : GwChannelEntry) : Prop where
  equipped : entry.Equipped
  idle : entry.occupied = true → ¬ entry.Supervising → entry.snapshot.Startable
  shown : ∀ (index : Nat) (thread : SupervisorThread), entry.supervisors[index]? = some thread →
    thread.phase = .supervising → thread.published = [] ∨ entry.Shows thread
  flag : entry.threadRunning = false → ¬ entry.Supervising

/-- The same between two sections, where `thread_running` tells of a running thread. -/
structure SlotIdle (entry : GwChannelEntry) : Prop extends ShowsIdle entry where
  running : entry.threadRunning = true → entry.Running

section Slot

variable {entry before after : GwChannelEntry} {index : Nat} {thread : SupervisorThread}

theorem GwChannelEntry.Equipped.congr (h : before.Equipped)
    (hoccupied : after.occupied = before.occupied) (hrun : after.runConfig = before.runConfig)
    (hoptions : after.options = before.options) : after.Equipped := by
  intro hafter
  obtain ⟨hrunnable, hobserver⟩ := h (hoccupied ▸ hafter)
  exact ⟨hrunnable.congr hrun hoptions, hoptions ▸ hobserver⟩

/-- A thread of a slot after one of them has changed. -/
theorem changeThread_cases {change : SupervisorThread → SupervisorThread} {other : Nat}
    (h : (entry.changeThread index change).supervisors[other]? = some thread) :
    (other = index ∧ ∃ earlier, entry.supervisors[index]? = some earlier ∧
        thread = change earlier) ∨
      (other ≠ index ∧ entry.supervisors[other]? = some thread) := by
  simp only [GwChannelEntry.changeThread, List.getElem?_modify] at h
  obtain ⟨earlier, hearlier, hchanged⟩ := Option.map_eq_some_iff.mp h
  by_cases hsame : index = other
  · subst hsame
    rw [if_pos rfl] at hchanged
    exact Or.inl ⟨rfl, earlier, hearlier, hchanged.symm⟩
  · rw [if_neg hsame] at hchanged
    refine Or.inr ⟨fun heq => hsame heq.symm, ?_⟩
    rw [hearlier, hchanged]

theorem changeThread_other {change : SupervisorThread → SupervisorThread} {other : Nat}
    (h : other ≠ index) :
    (entry.changeThread index change).supervisors[other]? = entry.supervisors[other]? := by
  simp only [GwChannelEntry.changeThread]
  exact List.getElem?_modify_ne _ _ (fun heq => h heq.symm)

/-- The live thread of a slot is the only one. -/
theorem SlotOk.live_unique {stage : SlotStage} (hok : SlotOk stage entry) {other : Nat}
    {thread' : SupervisorThread} (hfound : entry.supervisors[index]? = some thread)
    (hlive : thread.live = true) (hfound' : entry.supervisors[other]? = some thread')
    (hlive' : thread'.live = true) : other = index ∧ thread' = thread := by
  obtain ⟨-, front, hends, -, hindex, -⟩ := hok.owns_of_live hfound hlive
  obtain ⟨hother, heq⟩ := hends.live hfound' hlive'
  exact ⟨hother.trans hindex.symm, heq⟩

/-- A change that neither starts nor ends a supervisor. -/
theorem supervising_changeThread {change : SupervisorThread → SupervisorThread}
    (hfound : entry.supervisors[index]? = some thread)
    (h : (change thread).phase = .supervising ↔ thread.phase = .supervising) :
    (entry.changeThread index change).Supervising ↔ entry.Supervising := by
  constructor
  · rintro ⟨other, last, hlast, hphase⟩
    rcases changeThread_cases hlast with ⟨-, earlier, hearlier, rfl⟩ | ⟨-, hkept⟩
    · rw [hfound, Option.some.injEq] at hearlier
      subst hearlier
      exact ⟨index, thread, hfound, h.mp hphase⟩
    · exact ⟨other, last, hkept, hphase⟩
  · rintro ⟨other, last, hlast, hphase⟩
    by_cases hsame : other = index
    · subst hsame
      rw [hfound, Option.some.injEq] at hlast
      subst hlast
      exact ⟨other, _, changeThread_found hfound, h.mpr hphase⟩
    · exact ⟨other, last, (changeThread_other hsame).trans hlast, hphase⟩

/-- A change of a thread that is not in `gw_supervisor_run`, before and after. -/
theorem ShowsIdle.change {change : SupervisorThread → SupervisorThread} (h : ShowsIdle entry)
    (hfound : entry.supervisors[index]? = some thread) (hbefore : thread.phase ≠ .supervising)
    (hafter : (change thread).phase ≠ .supervising) :
    ShowsIdle (entry.changeThread index change) := by
  have hsame := supervising_changeThread hfound (iff_of_false hafter hbefore)
  refine ⟨h.equipped.congr rfl rfl rfl, ?_, ?_, ?_⟩
  · intro hoccupied hnone
    exact h.idle hoccupied fun hrunning => hnone (hsame.mpr hrunning)
  · intro other last hlast hphase
    rcases changeThread_cases hlast with ⟨-, earlier, hearlier, rfl⟩ | ⟨-, hkept⟩
    · rw [hfound, Option.some.injEq] at hearlier
      rw [← hearlier] at hphase
      exact absurd hphase hafter
    · exact h.shown other last hkept hphase
  · intro hflag hrunning
    exact h.flag hflag (hsame.mp hrunning)

/-- A thread's own step keeps what the slot shows. -/
theorem OwnStep.showsIdle {stage : SlotStage} (hok : SlotOk stage before) (h : ShowsIdle before)
    (hstep : OwnStep before after) (hcomplete : ReturnsComplete before after) :
    ShowsIdle after := by
  have hkept := hstep.kept
  have hequipped := h.equipped.congr hkept.occupied hkept.runConfig hkept.options
  cases hstep with
  | finishes found phase => exact h.change found (by simp [phase]) (by simp)
  | @thread index after step =>
    cases step with
    | @returns thread result found phase =>
      have hlive : thread.live = true := by simp [SupervisorThread.live, phase]
      have hrunning : before.Supervising := ⟨index, thread, found, phase⟩
      refine ⟨hequipped, ?_, ?_, ?_⟩
      · intro hoccupied _
        obtain ⟨hbefore, hobserver⟩ := h.equipped hoccupied
        obtain ⟨strtod, rounds, code, state, hreturn, hall⟩ := hcomplete index thread _ found
          (@changeThread_found _ _ _ (fun thread => { thread with phase := .returned }) found)
          phase (by simp)
        obtain ⟨last, hlast, hstartable⟩ := published_of_return hbefore.policy hbefore.enabled
          hbefore.binary hobserver hreturn
        rw [← hall] at hlast
        rcases h.shown index thread found phase with hnone | ⟨shown, hshown, hstate, hkind⟩
        · rw [hnone] at hlast
          cases hlast
        · rw [hlast, Option.some.injEq] at hshown
          subst hshown
          exact ⟨hstartable.1.imp hstate.trans hstate.trans, hkind.trans hstartable.2⟩
      · intro other last hlast hphase
        rcases changeThread_cases hlast with ⟨-, earlier, -, rfl⟩ | ⟨-, hsame⟩
        · cases hphase
        · exact h.shown other last hsame hphase
      · intro hflag
        exact absurd hrunning (h.flag hflag)
    | @stores thread found phase =>
      have hlive : thread.live = true := by simp [SupervisorThread.live, phase]
      have hchanged := @ShowsIdle.change before index thread
        (fun thread => { thread with phase := .stored }) h found (by simp [phase]) (by simp)
      refine ⟨hequipped, hchanged.idle, hchanged.shown, ?_⟩
      rintro - ⟨other, last, hlast, hphase⟩
      rcases changeThread_cases hlast with ⟨-, earlier, -, rfl⟩ | ⟨hother, hsame⟩
      · cases hphase
      · have hunique := hok.live_unique found hlive hsame (by simp [SupervisorThread.live, hphase])
        exact hother hunique.1
    | @observes thread snapshot found phase publishes =>
      have hlive : thread.live = true := by simp [SupervisorThread.live, phase]
      have hrunning : before.Supervising := ⟨index, thread, found, phase⟩
      refine ⟨hequipped, ?_, ?_, ?_⟩
      · intro _ hnone
        refine absurd ?_ hnone
        exact ⟨index, _, @changeThread_found _ _ _ (fun thread =>
          { thread with published := thread.published ++ [snapshot] }) found, phase⟩
      · intro other last hlast hphase
        rcases changeThread_cases hlast with ⟨-, earlier, -, rfl⟩ | ⟨hother, hsame⟩
        · exact Or.inr ⟨snapshot, List.getLast?_concat .., rfl, rfl⟩
        · have hunique := hok.live_unique found hlive hsame
            (by simp [SupervisorThread.live, hphase])
          exact absurd hunique.1 hother
      · intro hflag
        exact absurd hrunning (h.flag hflag)

/-- Where no supervisor runs, a slot's threads change nothing that it shows. -/
theorem OwnStep.unsupervised (hnone : ¬ before.Supervising) (hflag : before.threadRunning = false)
    (hstep : OwnStep before after) :
    ¬ after.Supervising ∧ after.snapshot = before.snapshot ∧ after.threadRunning = false := by
  have hchange : ∀ {index : Nat} {thread : SupervisorThread}
      (change : SupervisorThread → SupervisorThread), before.supervisors[index]? = some thread →
      thread.phase ≠ .supervising → (change thread).phase ≠ .supervising →
      ¬ (before.changeThread index change).Supervising := by
    intro index thread change hfound hbefore hafter hrunning
    exact hnone ((supervising_changeThread hfound (iff_of_false hafter hbefore)).mp hrunning)
  cases hstep with
  | finishes found phase =>
    exact ⟨hchange (fun thread => { thread with phase := .finished }) found (by simp [phase])
      (by simp), rfl, hflag⟩
  | @thread index after step =>
    cases step with
    | @returns thread result found phase => exact absurd ⟨index, thread, found, phase⟩ hnone
    | stores found phase =>
      exact ⟨hchange (fun thread => { thread with phase := .stored }) found (by simp [phase])
        (by simp), rfl, rfl⟩
    | @observes thread snapshot found phase publishes =>
      exact absurd ⟨index, thread, found, phase⟩ hnone

/-- A thread's own step clears `thread_running` where no other one runs. -/
theorem OwnStep.running (h : before.threadRunning = true → before.Running)
    (hstep : OwnStep before after) : after.threadRunning = true → after.Running := by
  cases hstep with
  | @finishes index thread found phase =>
    intro hflag
    obtain ⟨other, last, hlast, hphase⟩ := h hflag
    have hother : other ≠ index := by
      rintro rfl
      rw [found, Option.some.injEq] at hlast
      rw [← hlast, phase] at hphase
      simp at hphase
    exact ⟨other, last, (changeThread_other hother).trans hlast, hphase⟩
  | @thread index after step =>
    cases step with
    | @returns thread result found phase =>
      intro _
      exact ⟨index, _, @changeThread_found _ _ _
        (fun thread => { thread with phase := .returned }) found, Or.inr rfl⟩
    | stores found phase =>
      intro hflag
      cases hflag
    | @observes thread snapshot found phase publishes =>
      intro _
      exact ⟨index, _, @changeThread_found _ _ _ (fun thread =>
        { thread with published := thread.published ++ [snapshot] }) found, Or.inl phase⟩

end Slot

/-! ## Acts that start and end no supervisor -/

/-- Where a thread is and what it has published. -/
def SupervisorThread.progress (thread : SupervisorThread) : ThreadPhase × List GwChannelSnapshot :=
  (thread.phase, thread.published)

/-- An act that leaves the threads of a slot where they are, and what the slot shows. -/
structure QuietAct (before after : GwChannelEntry) : Prop where
  setup : SameSetup before after
  threadRunning : after.threadRunning = before.threadRunning
  threads : after.supervisors.map SupervisorThread.progress =
    before.supervisors.map SupervisorThread.progress

section Quiet

variable {before after : GwChannelEntry} {slot : Fin gwMaxChannels}

/-- The threads stay where they are. -/
theorem QuietAct.found (h : QuietAct before after) {index : Nat} {thread : SupervisorThread}
    (hfound : after.supervisors[index]? = some thread) :
    ∃ earlier, before.supervisors[index]? = some earlier ∧ thread.phase = earlier.phase ∧
      thread.published = earlier.published := by
  have hmap := congrArg (fun list => list[index]?) h.threads
  simp only [List.getElem?_map, hfound, Option.map_some] at hmap
  obtain ⟨earlier, hearlier, hprogress⟩ := Option.map_eq_some_iff.mp hmap.symm
  simp only [SupervisorThread.progress, Prod.mk.injEq] at hprogress
  exact ⟨earlier, hearlier, hprogress.1.symm, hprogress.2.symm⟩

theorem QuietAct.symm (h : QuietAct before after) : QuietAct after before :=
  ⟨⟨h.setup.occupied.symm, h.setup.generation.symm, h.setup.options.symm, h.setup.runConfig.symm,
    h.setup.configuredAt.symm, h.setup.snapshot.symm⟩, h.threadRunning.symm, h.threads.symm⟩

/-- An act that starts nothing leaves no slot supervised that was not. -/
theorem QuietAct.supervising (h : QuietAct before after) (hrunning : after.Supervising) :
    before.Supervising := by
  obtain ⟨index, thread, hfound, hphase⟩ := hrunning
  obtain ⟨earlier, hearlier, hsame, -⟩ := h.found hfound
  exact ⟨index, earlier, hearlier, hsame ▸ hphase⟩

/-- What an idle slot shows is not touched by what runs no supervisor. -/
theorem ShowsIdle.quiet (h : ShowsIdle before) (hact : QuietAct before after) :
    ShowsIdle after := by
  have hsetup := hact.setup
  refine ⟨h.equipped.congr hsetup.occupied hsetup.runConfig hsetup.options, ?_, ?_, ?_⟩
  · intro hoccupied hnone
    rw [hsetup.snapshot]
    exact h.idle (hsetup.occupied ▸ hoccupied) fun hrunning => hnone (hact.symm.supervising hrunning)
  · intro index thread hfound hphase
    obtain ⟨earlier, hearlier, hsame, hpublished⟩ := hact.found hfound
    rw [GwChannelEntry.Shows, hpublished, hsetup.snapshot]
    exact h.shown index earlier hearlier (hsame ▸ hphase)
  · intro hflag hrunning
    exact h.flag (hact.threadRunning ▸ hflag) (hact.supervising hrunning)

theorem SlotIdle.quiet (h : SlotIdle before) (hact : QuietAct before after) : SlotIdle after := by
  refine ⟨h.toShowsIdle.quiet hact, ?_⟩
  intro hflag
  obtain ⟨index, thread, hfound, hphase⟩ := h.running (hact.threadRunning ▸ hflag)
  obtain ⟨later, hlater, hsame, -⟩ := hact.symm.found hfound
  exact ⟨index, later, hlater, hsame ▸ hphase⟩

/-- A write of fields that no assertion is about. -/
theorem quietAct_control (entry : GwChannelEntry) (result stopSignal : Int) (threadStarted : Bool) :
    QuietAct entry
      { entry with result := result, stopSignal := stopSignal, threadStarted := threadStarted } :=
  ⟨⟨rfl, rfl, rfl, rfl, rfl, rfl⟩, rfl, rfl⟩

/-- A join takes only the handle. -/
theorem quietAct_join (h : before.join = some after) : QuietAct before after := by
  have hsetup := (RunAct.join h).setup
  unfold GwChannelEntry.join at h
  split at h
  · cases h
    exact ⟨hsetup, rfl, rfl⟩
  · split at h
    · cases h
      exact ⟨hsetup, rfl, rfl⟩
    · split at h
      · cases h
        refine ⟨hsetup, rfl, ?_⟩
        apply List.ext_getElem?
        intro index
        simp only [GwChannelEntry.changeThread, List.getElem?_map, List.getElem?_modify]
        cases before.supervisors[index]? with
        | none => rfl
        | some thread =>
          simp only [Option.map_eq_map, Option.map_some]
          split <;> rfl
      · cases h

theorem reapEntry_quiet : (reapEntry slot).Acts (OnSlot QuietAct slot) := by
  refine Section.acts_bind ⟨?_, fun _ => trivial⟩
    fun _ => acts_updateEntry fun entry => quietAct_control entry ..
  intro manager answer result after heq
  rw [Option.map_eq_some_iff] at heq
  obtain ⟨entry, hjoin, heq⟩ := heq
  rw [Prod.mk.injEq] at heq
  rw [← heq.2]
  exact onSlot_setEntry (quietAct_join hjoin) manager.activeThreads

/-- `stop_entry` asks a supervisor to stop and joins it: it starts nothing. -/
theorem stopEntry_quiet : (stopEntry slot).Acts (OnSlot QuietAct slot) := by
  refine Section.acts_bind (acts_readEntry _) fun started => acts_runWhen ?_
  exact Section.acts_bind (acts_updateEntry fun entry => quietAct_control entry ..)
    fun _ => reapEntry_quiet

end Quiet

/-! ## The manager -/

/-- What holds of all slots between two sections. -/
structure IdleInv (manager : GwChannelManager) : Prop where
  binary : manager.callerOptions.ffmpegBinary.getD [] ≠ []
  slots : ∀ slot, SlotIdle (manager.entries slot)

/-- The same, but for one slot, of which something else is known. -/
structure Around (slot : Fin gwMaxChannels) (P : GwChannelEntry → Prop)
    (manager : GwChannelManager) : Prop where
  binary : manager.callerOptions.ffmpegBinary.getD [] ≠ []
  others : ∀ other, other ≠ slot → SlotIdle (manager.entries other)
  here : P (manager.entries slot)

/-- The supervisor threads, each of which completes a run before it returns. -/
def idleSetting : Setting GwChannelManager (Option Errno) where
  interferes before after :=
    Interferes True before after ∧ ManagerSafe before ∧
      ∀ slot, ReturnsComplete (before.entries slot) (after.entries slot)
  answers _ := True
  safe manager := ∀ slot, ShowsIdle (manager.entries slot)

/-- An assertion about a slot that no step of its own threads ends. -/
def Endures (P : GwChannelEntry → Prop) : Prop :=
  ∀ {stage : SlotStage} {before after : GwChannelEntry}, SlotOk stage before → P before →
    OwnStep before after → ReturnsComplete before after → P after

section Manager

variable {manager : GwChannelManager} {slot : Fin gwMaxChannels} {P : GwChannelEntry → Prop}

/-- The steps of the supervisors keep it, between any two acts of the lock's holder. -/
theorem slotIdle_endures : Endures SlotIdle := by
  intro stage before after hok h hstep hcomplete
  exact ⟨hstep.showsIdle hok h.toShowsIdle hcomplete, hstep.running h.running⟩

theorem IdleInv.around (h : IdleInv manager) (slot : Fin gwMaxChannels) :
    Around slot SlotIdle manager :=
  ⟨h.binary, fun other _ => h.slots other, h.slots slot⟩

theorem Around.idleInv (h : Around slot SlotIdle manager) : IdleInv manager := by
  refine ⟨h.binary, fun other => ?_⟩
  by_cases hsame : other = slot
  · rw [hsame]
    exact h.here
  · exact h.others other hsame

theorem Around.shows (h : Around slot P manager)
    (hshows : ∀ entry, P entry → ShowsIdle entry) : idleSetting.safe manager := by
  intro other
  by_cases hsame : other = slot
  · rw [hsame]
    exact hshows _ h.here
  · exact (h.others other hsame).toShowsIdle

/-- What is known of a slot that is being started outlasts the steps of all supervisors. -/
theorem around_stable (hendures : Endures P) : idleSetting.Stable (Around slot P) := by
  rintro before after h ⟨hstep, hsafe, hcomplete⟩
  have hoptions : after.callerOptions = before.callerOptions := by
    cases hstep <;> rfl
  refine ⟨hoptions ▸ h.binary, fun other hother => ?_, ?_⟩
  · rcases interferes_entry hstep other with hkept | hown
    · rw [hkept]
      exact h.others other hother
    · obtain ⟨stage, hok⟩ := hsafe.slots other
      exact slotIdle_endures hok (h.others other hother) hown (hcomplete other)
  · rcases interferes_entry hstep slot with hkept | hown
    · rw [hkept]
      exact h.here
    · obtain ⟨stage, hok⟩ := hsafe.slots slot
      exact hendures hok h.here hown (hcomplete slot)

theorem idleInv_stable : idleSetting.Stable IdleInv := by
  intro before after h hstep
  exact (around_stable slotIdle_endures _ _ (h.around firstSlot) hstep).idleInv

/-- An act on one slot. -/
theorem OnSlot.around {R : GwChannelEntry → GwChannelEntry → Prop}
    {before after : GwChannelManager} {Q : GwChannelEntry → Prop} (hact : OnSlot R slot before after)
    (h : Around slot P before) (hhere : Q (after.entries slot)) : Around slot Q after := by
  refine ⟨hact.callerOptions ▸ h.binary, fun other hother => ?_, hhere⟩
  rw [hact.others other hother]
  exact h.others other hother

end Manager

/-! ## Starting a slot -/

/-- What holds of a slot in which no supervisor runs. -/
structure Unsupervised (entry : GwChannelEntry) : Prop where
  equipped : entry.Equipped
  startable : entry.occupied = true → entry.snapshot.Startable
  none : ¬ entry.Supervising

/-- What holds of a slot once `thread_running` is set: only a thread that had not been
joined can have cleared it again. -/
structure Raised (entry : GwChannelEntry) : Prop extends ShowsIdle entry where
  raised : entry.threadRunning = true ∨
    ∃ (index : Nat) (thread : SupervisorThread), entry.supervisors[index]? = some thread ∧
      ¬ thread.Over

/-- What holds of a slot whose last thread is counted but not created. -/
structure Counted (phase : ThreadPhase) (entry : GwChannelEntry) : Prop extends
    Unsupervised entry where
  flagged : entry.threadRunning = true
  last : ∃ front : List SupervisorThread, (∀ thread ∈ front, thread.Over) ∧
    entry.supervisors = front ++ [⟨phase, 0, []⟩]

/-- What holds of a slot whose thread is not counted any more. -/
structure Cleared (entry : GwChannelEntry) : Prop extends Unsupervised entry where
  ended : ∀ thread ∈ entry.supervisors, thread.Over

section Stages

variable {entry before after : GwChannelEntry} {phase : ThreadPhase}

theorem Unsupervised.shows (h : Unsupervised entry) : ShowsIdle entry := by
  refine ⟨h.equipped, fun hoccupied _ => h.startable hoccupied, ?_, fun _ => h.none⟩
  intro index thread hfound hphase
  exact absurd ⟨index, thread, hfound, hphase⟩ h.none

theorem SupervisorThread.Over.not_running {thread : SupervisorThread} (h : thread.Over) :
    thread.phase ≠ .supervising := by
  rcases h with ⟨hphase, -⟩ | ⟨hphase, -⟩ <;> simp [hphase]

/-- Threads that are over run nothing, whatever thread comes after them. -/
theorem not_supervising_of_over {front : List SupervisorThread} {last : SupervisorThread}
    (hfront : ∀ thread ∈ front, thread.Over) (hlast : last.phase ≠ .supervising)
    (hsplit : entry.supervisors = front ++ [last]) : ¬ entry.Supervising := by
  rintro ⟨index, thread, hfound, hphase⟩
  rw [hsplit] at hfound
  rcases List.mem_append.mp (List.mem_of_getElem? hfound) with hmem | hmem
  · exact (hfront thread hmem).not_running hphase
  · rw [List.mem_singleton.mp hmem] at hphase
    exact hlast hphase

/-- Before a last thread that is not over all others are. -/
theorem SlotOk.over_before {stage : SlotStage} (hok : SlotOk stage entry)
    {front : List SupervisorThread} {last : SupervisorThread}
    (hsplit : entry.supervisors = front ++ [last]) (hlast : ¬ last.Over) :
    ∀ thread ∈ front, thread.Over := by
  have hmem : last ∈ entry.supervisors := by
    rw [hsplit]
    exact List.mem_append_right _ (List.mem_singleton.mpr rfl)
  have hends : ∀ {front' last'}, entry.EndsWith front' last' → ∀ thread ∈ front, thread.Over := by
    intro front' last' hends
    have hsame := hends.split
    rw [hsplit] at hsame
    rw [(List.append_inj' hsame rfl).1]
    exact hends.ended
  cases stage with
  | free => exact absurd (hok.2.ended last hmem) hlast
  | joined => exact absurd (hok.2.2.ended last hmem) hlast
  | announced | failed =>
    obtain ⟨-, -, front', hfront⟩ := hok
    exact hends hfront
  | created | held =>
    obtain ⟨-, -, front', last', hfront, -⟩ := hok
    exact hends hfront

/-- A step of a slot's threads is one of a live thread, which is not over afterwards. -/
theorem OwnStep.not_over {stage : SlotStage} (hok : SlotOk stage before)
    (hstep : OwnStep before after) :
    (∃ thread ∈ before.supervisors, thread.live = true) ∧
      ∃ (index : Nat) (thread : SupervisorThread), after.supervisors[index]? = some thread ∧
        ¬ thread.Over := by
  have hchange : ∀ {index : Nat} {thread : SupervisorThread}
      (change : SupervisorThread → SupervisorThread),
      before.supervisors[index]? = some thread → thread.live = true →
      (change thread).joins = thread.joins → (change thread).phase ≠ .abandoned →
      (∃ thread ∈ before.supervisors, thread.live = true) ∧
        ∃ (other : Nat) (thread : SupervisorThread),
          (before.changeThread index change).supervisors[other]? = some thread ∧
            ¬ thread.Over := by
    intro index thread change hfound hlive hjoins hphase
    obtain ⟨-, front, -, -, -, hnever⟩ := hok.owns_of_live hfound hlive
    refine ⟨⟨thread, List.mem_of_getElem? hfound, hlive⟩, index, _, changeThread_found hfound, ?_⟩
    rintro (⟨-, hjoined⟩ | ⟨habandoned, -⟩)
    · rw [hjoins, hnever] at hjoined
      cases hjoined
    · exact hphase habandoned
  cases hstep with
  | finishes found phase =>
    exact hchange (fun thread => { thread with phase := .finished }) found
      (by simp [SupervisorThread.live, phase]) rfl (by simp)
  | thread step =>
    cases step with
    | returns result found phase =>
      exact hchange (fun thread => { thread with phase := .returned }) found
        (by simp [SupervisorThread.live, phase]) rfl (by simp)
    | stores found phase =>
      exact hchange (fun thread => { thread with phase := .stored }) found
        (by simp [SupervisorThread.live, phase]) rfl (by simp)
    | observes snapshot found phase publishes =>
      exact hchange (fun thread => { thread with published := thread.published ++ [snapshot] })
        found (by simp [SupervisorThread.live, phase]) rfl (by simp [phase])

/-- A slot without a live thread keeps what is known of it. -/
theorem endures_of_not_live {P : GwChannelEntry → Prop}
    (h : ∀ entry, P entry → ∀ thread ∈ entry.supervisors, thread.live = false) : Endures P := by
  intro stage before after hok hbefore hstep _
  obtain ⟨⟨thread, hmem, hlive⟩, -⟩ := hstep.not_over hok
  rw [h before hbefore thread hmem] at hlive
  cases hlive

theorem raised_endures : Endures Raised := by
  intro stage before after hok h hstep hcomplete
  exact ⟨hstep.showsIdle hok h.toShowsIdle hcomplete, Or.inr (hstep.not_over hok).2⟩

theorem counted_endures (hphase : phase = .announced ∨ phase = .creationFailed) :
    Endures (Counted phase) := by
  apply endures_of_not_live
  intro entry h thread hmem
  obtain ⟨front, hfront, hsplit⟩ := h.last
  rw [hsplit] at hmem
  rcases List.mem_append.mp hmem with hbefore | hlast
  · exact (hfront thread hbefore).not_live
  · rw [List.mem_singleton.mp hlast]
    rcases hphase with rfl | rfl <;> rfl

theorem cleared_endures : Endures Cleared := by
  apply endures_of_not_live
  exact fun entry h thread hmem => (h.ended thread hmem).not_live

/-! ### The steps of `start_entry` -/

theorem SlotIdle.raise (h : SlotIdle entry) : Raised { entry with threadRunning := true } := by
  exact ⟨⟨h.equipped.congr rfl rfl rfl, h.idle, h.shown, fun hflag => by cases hflag⟩, Or.inl rfl⟩

/-- The count goes up before the thread is created, so the slot is never idle in between. -/
theorem Raised.announce (h : Raised entry) (hok : ∃ stage, SlotOk stage entry.announced) :
    Counted .announced entry.announced := by
  obtain ⟨stage, hok⟩ := hok
  have hover := hok.over_before rfl (by simp [SupervisorThread.Over])
  have hnone : ¬ entry.Supervising := by
    rintro ⟨index, thread, hfound, hphase⟩
    exact (hover thread (List.mem_of_getElem? hfound)).not_running hphase
  refine ⟨⟨h.equipped.congr rfl rfl rfl, fun hoccupied => h.idle hoccupied hnone,
    not_supervising_of_over hover (by simp) rfl⟩, ?_, _, hover, rfl⟩
  rcases h.raised with hflag | ⟨index, thread, hfound, hnot⟩
  · exact hflag
  · exact absurd (hover thread (List.mem_of_getElem? hfound)) hnot

/-- The last thread changes. -/
theorem Counted.change (h : Counted phase entry) (change : SupervisorThread → SupervisorThread) :
    ∃ front : List SupervisorThread, (∀ thread ∈ front, thread.Over) ∧
      (entry.changeThread (entry.supervisors.length - 1) change).supervisors =
        front ++ [change ⟨phase, 0, []⟩] := by
  obtain ⟨front, hfront, hsplit⟩ := h.last
  refine ⟨front, hfront, ?_⟩
  simp only [GwChannelEntry.changeThread, hsplit, List.length_append, List.length_singleton,
    Nat.add_sub_cancel, modify_last]

/-- The thread is created: it will publish, and the slot is its own. -/
theorem Counted.created (h : Counted .announced entry) : SlotIdle (entry.afterCreate none) := by
  obtain ⟨front, hfront, hsplit⟩ := h.change fun thread => { thread with phase := .supervising }
  have hlast : (entry.afterCreate none).supervisors[front.length]? =
      some ⟨.supervising, 0, []⟩ := by
    simp only [GwChannelEntry.afterCreate, hsplit, List.getElem?_append_right (le_refl _),
      Nat.sub_self, List.getElem?_cons_zero]
  refine ⟨⟨h.equipped.congr rfl rfl rfl, ?_, ?_, ?_⟩,
    fun _ => ⟨front.length, _, hlast, Or.inl rfl⟩⟩
  · intro _ hnone
    exact absurd ⟨front.length, _, hlast, rfl⟩ hnone
  · intro index thread hfound hphase
    have hmem := List.mem_of_getElem? hfound
    simp only [GwChannelEntry.afterCreate, hsplit] at hmem
    rcases List.mem_append.mp hmem with hbefore | hone
    · exact absurd hphase (hfront thread hbefore).not_running
    · rw [List.mem_singleton.mp hone]
      exact Or.inl rfl
  · intro hflag
    have hflagged : (entry.afterCreate none).threadRunning = true := h.flagged
    rw [hflagged] at hflag
    cases hflag

/-- The thread is not created: the count and the flag are taken back. -/
theorem Counted.failed (h : Counted .announced entry) (errno : Errno) :
    Counted .creationFailed (entry.afterCreate (some errno)) := by
  obtain ⟨front, hfront, hsplit⟩ := h.change fun thread => { thread with phase := .creationFailed }
  exact ⟨⟨h.equipped.congr rfl rfl rfl, h.startable,
    not_supervising_of_over hfront (by simp) hsplit⟩, h.flagged, front, hfront, hsplit⟩

theorem Counted.retract (h : Counted .creationFailed entry) : Cleared entry.retracted := by
  obtain ⟨front, hfront, hsplit⟩ := h.change fun thread => { thread with phase := .abandoned }
  refine ⟨⟨h.equipped.congr rfl rfl rfl, h.startable,
    not_supervising_of_over hfront (by simp) hsplit⟩, ?_⟩
  intro thread hmem
  rw [GwChannelEntry.retracted, hsplit] at hmem
  rcases List.mem_append.mp hmem with hbefore | hone
  · exact hfront thread hbefore
  · rw [List.mem_singleton.mp hone]
    exact Or.inr ⟨rfl, rfl⟩

theorem Cleared.lower (h : Cleared entry) : SlotIdle { entry with threadRunning := false } := by
  exact ⟨⟨h.equipped.congr rfl rfl rfl, fun hoccupied _ => h.startable hoccupied, h.shows.shown,
    fun _ => h.none⟩, fun hflag => by cases hflag⟩

end Stages

/-! ### The rules, and the section -/

section Rules

variable {manager : GwChannelManager} {slot : Fin gwMaxChannels} {P : GwChannelEntry → Prop}

/-- The rule for an act on one slot. -/
theorem wlp_around {α ρ : Type}
    {act : GwChannelManager → Option Errno → Option (ρ × GwChannelManager)}
    {next : ρ → Lifecycle α} {post : α → GwChannelManager → Prop} {Q : ρ → GwChannelEntry → Prop}
    (h : Around slot P manager)
    (hact : ∀ answer result after, act manager answer = some (result, after) →
      OnSlot RunAct slot manager after ∧
        ((∃ stage, SlotOk stage (after.entries slot)) → Q result (after.entries slot)))
    (hendures : ∀ result, Endures (Q result))
    (hshows : ∀ result entry, Q result entry → ShowsIdle entry)
    (hnext : ∀ result after, Around slot (Q result) after →
      (next result).wlp idleSetting ManagerSafe post after) :
    (Section.step act next).wlp idleSetting ManagerSafe post manager := by
  refine Section.wlp_step (fun result => Around slot (Q result)) ?_
    (fun result => around_stable (hendures result))
    (fun result _ h => h.shows (hshows result)) hnext
  intro answer result after _ heq hguard
  obtain ⟨honSlot, hhere⟩ := hact answer result after heq
  exact honSlot.around h (hhere (hguard.slots slot))

/-- The rule for a write to one slot, and to what the manager counts. -/
theorem wlp_setEntry_around {f : GwChannelEntry → GwChannelEntry} {active : GwChannelManager → Nat}
    {post : Unit → GwChannelManager → Prop} {Q : GwChannelEntry → Prop} (h : Around slot P manager)
    (hact : RunAct (manager.entries slot) (f (manager.entries slot)))
    (hf : ∀ entry, P entry → (∃ stage, SlotOk stage (f entry)) → Q (f entry))
    (hendures : Endures Q) (hshows : ∀ entry, Q entry → ShowsIdle entry)
    (hpost : ∀ after, Around slot Q after → post () after) :
    (Section.write fun manager : GwChannelManager =>
        { manager.setEntry slot (f (manager.entries slot)) with
          activeThreads := active manager }).wlp idleSetting ManagerSafe post manager := by
  refine @wlp_around manager slot P _ _ _ _ _ (fun _ => Q) h ?_ (fun _ => hendures) (fun _ => hshows)
    fun _ => hpost
  intro answer result after heq
  rw [Option.some.injEq, Prod.mk.injEq] at heq
  obtain ⟨-, rfl⟩ := heq
  refine ⟨onSlot_setEntry hact _, ?_⟩
  simp only [setEntry_self]
  exact hf _ h.here

theorem wlp_updateEntry_around {f : GwChannelEntry → GwChannelEntry}
    {post : Unit → GwChannelManager → Prop} {Q : GwChannelEntry → Prop} (h : Around slot P manager)
    (hact : RunAct (manager.entries slot) (f (manager.entries slot)))
    (hf : ∀ entry, P entry → Q (f entry))
    (hendures : Endures Q) (hshows : ∀ entry, Q entry → ShowsIdle entry)
    (hpost : ∀ after, Around slot Q after → post () after) :
    (updateEntry slot f).wlp idleSetting ManagerSafe post manager :=
  @wlp_setEntry_around manager slot P f (·.activeThreads) post Q h hact
    (fun entry hentry _ => hf entry hentry) hendures hshows hpost

/-- Acts on slots that start and end no supervisor keep the invariant. -/
theorem keeps_of_quiet {α : Type} {body : Lifecycle α} (h : body.Acts (OnSlot QuietAct slot)) :
    body.Keeps idleSetting ManagerSafe IdleInv := by
  refine h.keeps idleInv_stable (fun _ h slot => (h.slots slot).toShowsIdle) ?_
  intro before after hact _ hinv
  refine (hact.around (hinv.around slot) ?_).idleInv
  rcases hact.here with hkept | hquiet
  · rw [hkept]
    exact hinv.slots slot
  · exact (hinv.slots slot).quiet hquiet

theorem idleInv_read {α : Type} (f : GwChannelManager → α) :
    (Section.read f : Lifecycle α).Keeps idleSetting ManagerSafe IdleInv :=
  @keeps_of_quiet firstSlot _ _ (Section.acts_read onSlot_refl f)

/-- What is known of a slot after `pthread_create`. -/
def AfterCreate : Option Errno → GwChannelEntry → Prop
  | none => SlotIdle
  | some _ => Counted .creationFailed

/-- `start_entry` leaves the slot startable or with a running supervisor. -/
theorem startEntry_keeps : (startEntry slot).Keeps idleSetting ManagerSafe IdleInv := by
  have hshows : ∀ entry, SlotIdle entry → ShowsIdle entry := fun _ h => h.toShowsIdle
  intro manager h
  rw [startEntry, Section.wlp_bind]
  refine wlp_updateEntry_around (h.around slot) (.control ..)
    (fun entry h => h.quiet (quietAct_control entry ..)) slotIdle_endures hshows fun manager h => ?_
  rw [Section.wlp_bind]
  refine wlp_updateEntry_around h (.control ..)
    (fun entry h => h.quiet (quietAct_control entry ..)) slotIdle_endures hshows fun manager h => ?_
  rw [Section.wlp_bind]
  refine wlp_updateEntry_around h (.control ..) (fun _ h => h.raise) raised_endures
    (fun _ h => h.toShowsIdle) fun manager h => ?_
  rw [Section.wlp_bind]
  refine wlp_setEntry_around h .announce (fun _ h hok => h.announce hok)
    (counted_endures (Or.inl rfl)) (fun _ h => h.shows) fun manager h => ?_
  rw [Section.wlp_bind]
  refine @wlp_around _ _ _ _ _ _ _ _ AfterCreate h ?_ ?_ ?_ ?_
  · intro answer result after heq
    rw [Option.some.injEq, Prod.mk.injEq] at heq
    obtain ⟨rfl, rfl⟩ := heq
    refine ⟨onSlot_setEntry (.create _) manager.activeThreads, fun _ => ?_⟩
    rw [setEntry_self]
    cases answer with
    | none => exact h.here.created
    | some errno => exact h.here.failed errno
  · intro result
    cases result with
    | none => exact slotIdle_endures
    | some errno => exact counted_endures (Or.inr rfl)
  · intro result entry h
    cases result with
    | none => exact h.toShowsIdle
    | some errno => exact h.shows
  · intro result manager h
    cases result with
    | none =>
      rw [Section.wlp_done, Section.wlp_bind]
      exact wlp_updateEntry_around h (.control ..) (fun entry h => h.quiet (quietAct_control entry ..))
        slotIdle_endures hshows fun after h => h.idleInv
    | some errno =>
      rw [Section.wlp_done, Section.wlp_bind]
      refine wlp_setEntry_around h .retract (fun _ h _ => h.retract) cleared_endures
        (fun _ h => h.shows) fun manager h => ?_
      rw [Section.wlp_bind]
      refine wlp_updateEntry_around h (.control ..) (fun _ h => h.lower) slotIdle_endures hshows
        fun manager h => ?_
      have hread : (readEntry slot fun entry => entry.channel.id.bytes).Keeps idleSetting
          ManagerSafe IdleInv := idleInv_read _
      exact Section.keeps_bind hread (fun _ => Section.keeps_pure _) manager h.idleInv

end Rules

/-! ### All sections -/

section Sections

variable {manager : GwChannelManager} {slot : Fin gwMaxChannels}

/-- A slot without a supervisor is configured. -/
theorem SlotIdle.configured {entry : GwChannelEntry} (h : SlotIdle entry)
    (hnone : ¬ entry.Supervising) {options : GwSupervisorOptions}
    (hbinary : options.ffmpegBinary.getD [] ≠ []) {channel : GwChannelConfig} {config : GwConfig}
    (haccepted : gwConfigValidate config = .ok ()) (henabled : channel.enabled = true) :
    SlotIdle (configureEntry options channel config entry) := by
  have hunsupervised : Unsupervised (configureEntry options channel config entry) := by
    have hpolicy := policyUsable_of_accepted haccepted
    refine ⟨fun _ => ⟨⟨hpolicy, henabled, hbinary⟩, rfl⟩, fun _ => ⟨Or.inl ?_, rfl⟩, hnone⟩
    simp only [configureEntry, gwChannelSnapshotInit, henabled, if_true]
    rfl
  exact ⟨hunsupervised.shows, h.running⟩

/-- Only a slot whose threads are all over is configured. -/
theorem SlotOk.configured_over {stage : SlotStage} {entry : GwChannelEntry}
    (hok : SlotOk stage entry) (hconfigured : entry.configuredAt = entry.supervisors.length) :
    ∀ thread ∈ entry.supervisors, thread.Over := by
  have hends : ∀ {front last}, ¬ entry.EndsWith front last := by
    intro front last hends
    have hnewer := hends.newer
    rw [hconfigured, hends.split, List.length_append, List.length_singleton] at hnewer
    omega
  cases stage with
  | free => exact hok.2.ended
  | joined => exact hok.2.2.ended
  | announced | failed =>
    obtain ⟨-, -, front, hfront⟩ := hok
    exact absurd hfront hends
  | created | held =>
    obtain ⟨-, -, front, last, hfront, -⟩ := hok
    exact absurd hfront hends

theorem configureSlot_keeps {channel : GwChannelConfig} {config : GwConfig}
    (haccepted : gwConfigValidate config = .ok ()) (henabled : channel.enabled = true) :
    (configureSlot slot channel config).Keeps idleSetting ManagerSafe IdleInv := by
  have hacts : (configureSlot slot channel config).Acts fun before after =>
      after = before.setEntry slot
        (configureEntry before.callerOptions channel config (before.entries slot)) :=
    Section.acts_write fun _ => rfl
  refine hacts.keeps idleInv_stable (fun _ h slot => (h.slots slot).toShowsIdle) ?_
  rintro before after rfl hguard h
  obtain ⟨stage, hok⟩ := hguard.slots slot
  rw [setEntry_self] at hok
  have hover := hok.configured_over rfl
  have hnone : ¬ (before.entries slot).Supervising := by
    rintro ⟨index, thread, hfound, hphase⟩
    exact (hover thread (List.mem_of_getElem? hfound)).not_running hphase
  refine ⟨h.binary, fun other => ?_⟩
  by_cases hsame : other = slot
  · rw [hsame, setEntry_self]
    exact (h.slots slot).configured hnone h.binary haccepted henabled
  · rw [setEntry_of_ne _ _ hsame]
    exact h.slots other

/-- Writes to what the slots know nothing of keep the invariant. -/
theorem keeps_of_same {α : Type} {body : Lifecycle α}
    (h : body.Acts fun before after => after.entries = before.entries ∧
      after.callerOptions = before.callerOptions) :
    body.Keeps idleSetting ManagerSafe IdleInv := by
  refine h.keeps idleInv_stable (fun _ h slot => (h.slots slot).toShowsIdle) ?_
  rintro before after ⟨hentries, hoptions⟩ _ hinv
  refine ⟨hoptions ▸ hinv.binary, fun slot => ?_⟩
  rw [hentries]
  exact hinv.slots slot

theorem releaseEntry_keeps :
    (updateEntry slot fun entry => { entry with occupied := false }).Keeps idleSetting ManagerSafe
      IdleInv := by
  have hacts : (updateEntry slot fun entry => { entry with occupied := false }).Acts
      fun before after =>
        after = before.setEntry slot { before.entries slot with occupied := false } :=
    Section.acts_write fun _ => rfl
  refine hacts.keeps idleInv_stable (fun _ h slot => (h.slots slot).toShowsIdle) ?_
  rintro before after rfl _ h
  refine ⟨h.binary, fun other => ?_⟩
  by_cases hsame : other = slot
  · rw [hsame, setEntry_self]
    have hslot := h.slots slot
    refine ⟨⟨?_, ?_, hslot.shown, hslot.flag⟩, hslot.running⟩
    · intro hoccupied
      cases hoccupied
    · intro hoccupied
      cases hoccupied
  · rw [setEntry_of_ne _ _ hsame]
    exact h.slots other

/-- The commands, the start, the reload and the wait keep idle slots startable. -/
theorem sectionClass_keeps :
    SectionClass fun body => body.Keeps idleSetting ManagerSafe IdleInv := by
  have hplain : PlainClass fun body => body.Keeps idleSetting ManagerSafe IdleInv :=
    ⟨Section.keeps_pure, Section.keeps_bind, idleInv_read⟩
  exact
    { hplain with
      slots := fun slot =>
        { hplain with
          start := startEntry_keeps
          stop := keeps_of_quiet stopEntry_quiet
          reap := keeps_of_quiet reapEntry_quiet }
      write := by
        intro f hf
        refine keeps_of_same (Section.acts_write fun manager => ?_)
        exact ⟨(hf manager).1, (hf manager).2.1⟩
      createMetrics := by
        refine keeps_of_same ⟨?_, fun _ => trivial⟩
        intro manager answer result after heq
        rw [Option.some.injEq, Prod.mk.injEq] at heq
        rw [← heq.2]
        exact ⟨rfl, rfl⟩
      release := fun _ => releaseEntry_keeps
      configure := by
        intro slot channel config haccepted _ henabled
        exact configureSlot_keeps haccepted henabled }

theorem calls_keep (world : GwChannelManager) (called : Lifecycle Unit) (h : Calls world called) :
    called.Keeps idleSetting ManagerSafe IdleInv := by
  obtain ⟨call, -, rfl⟩ := h
  exact sectionClass_keeps.body
    (fun _ => keeps_of_same (Section.acts_write fun _ => ⟨rfl, rfl⟩)) call

end Sections

end LearnApue.Gateway
