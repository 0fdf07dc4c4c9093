import LearnApue.Gateway.IdleSlots

set_option autoImplicit false

/-!
# Gateway: an idle channel can be started

`gw_channel_manager_start_channel` asks for a snapshot of a stopped or failed channel.
In every run every occupied slot without a supervisor shows one, from its configuration
on; so the command never reports a conflict for such a channel, and always does for one
whose supervisor runs.
-/

namespace LearnApue.Gateway

open LearnApue.Foundation

/-! ## Runs -/

/-- Every thread completes a run of the supervisor before it returns from it. -/
def RunsComplete (before after : GwChannelManager) : Prop :=
  ∀ slot, ReturnsComplete (before.entries slot) (after.entries slot)

section Create

variable {answers : CreateAnswers} {config : GwConfig} {options : GwSupervisorOptions}
  {manager : GwChannelManager}

/-- What holds while the channels are placed. -/
structure Placing (manager : GwChannelManager) : Prop extends IdleInv manager where
  none : ∀ slot, ¬ (manager.entries slot).Supervising

theorem placing_unplaced (hbinary : options.ffmpegBinary.getD [] ≠ []) :
    Placing (unplacedManager config options) := by
  have hnone : ¬ blankEntry.Supervising := by
    rintro ⟨index, thread, hfound, -⟩
    simp [blankEntry] at hfound
  have hblank : Unsupervised blankEntry := by
    refine ⟨?_, ?_, hnone⟩
    · intro hoccupied
      cases hoccupied
    · intro hoccupied
      cases hoccupied
  exact ⟨⟨hbinary, fun _ => ⟨hblank.shows, fun hflag => by cases hflag⟩⟩, fun _ => hnone⟩

/-- A channel that is placed starts as a stopped one without a process. -/
theorem Placing.place (haccepted : gwConfigValidate config = .ok ()) (h : Placing manager)
    (channel : GwChannelConfig) : Placing (placeChannels config manager channel) := by
  unfold placeChannels
  split
  · rename_i henabled
    cases findFreeEntry manager with
    | none => exact h
    | some slot =>
      have hslot := (h.slots slot).configured (h.none slot) h.binary haccepted henabled
      refine ⟨⟨h.binary, fun other => ?_⟩, fun other => ?_⟩
      · by_cases hsame : other = slot
        · rw [hsame, setEntry_self]
          exact hslot
        · rw [setEntry_of_ne _ _ hsame]
          exact h.slots other
      · by_cases hsame : other = slot
        · rw [hsame, setEntry_self]
          exact h.none slot
        · rw [setEntry_of_ne _ _ hsame]
          exact h.none other
  · exact h

/-- A created manager has idle slots only. -/
theorem idleInv_of_create (hcreate : gwChannelManagerCreate answers config options = .ok manager) :
    IdleInv manager := by
  obtain ⟨hbinary, haccepted, rfl⟩ := gwChannelManagerCreate_eq hcreate
  have hplaced : ∀ (channels : List GwChannelConfig) {manager : GwChannelManager},
      Placing manager → Placing (channels.foldl (placeChannels config) manager) := by
    intro channels
    induction channels with
    | nil => exact fun h => h
    | cons channel rest ih => exact fun h => ih (h.place haccepted channel)
  exact (hplaced config.channels (placing_unplaced hbinary)).toIdleInv

/-- The slots show what they should in every run whose threads complete theirs. -/
theorem kept_of_run (hcreate : gwChannelManagerCreate answers config options = .ok manager)
    {monitor : Monitor GwChannelManager (Option Errno)}
    (hrun : ManagerRun RunsComplete ⟨manager, [], none⟩ monitor) :
    Monitor.Kept idleSetting ManagerSafe IdleInv monitor := by
  have hinv := idleInv_of_create hcreate
  have hshows : ∀ state, IdleInv state → idleSetting.safe state :=
    fun _ h slot => (h.slots slot).toShowsIdle
  have hstart : Monitor.Kept idleSetting ManagerSafe IdleInv ⟨manager, [], none⟩ :=
    ⟨hshows manager hinv, (by simp), fun _ => hinv, (by simp)⟩
  refine hstart.run idleInv_stable hshows calls_keep (fun _ _ => trivial) ?_ hrun ?_
  · exact fun before after hstep hcomplete hsafe _ => ⟨hstep, hsafe, hcomplete⟩
  · exact fun between hbetween =>
      managerSafe_of_reaches hcreate (Monitor.Reaches.start.runs hbetween)

end Create

/-! ## The threads of a slot -/

/-- Whether each thread of a slot was created, in the order of their announcements. -/
def GwChannelEntry.births (entry : GwChannelEntry) : List Bool :=
  entry.supervisors.map SupervisorThread.created

/-- The threads of a slot are counted from its first one on. -/
theorem births_changeThread {entry : GwChannelEntry} {index : Nat}
    {change : SupervisorThread → SupervisorThread}
    (h : ∀ thread, entry.supervisors[index]? = some thread →
      (change thread).created = thread.created) :
    (entry.changeThread index change).births = entry.births := by
  refine List.ext_getElem? fun at_ => ?_
  unfold GwChannelEntry.births GwChannelEntry.changeThread
  rw [List.getElem?_map, List.getElem?_map]
  by_cases hsame : index = at_
  · subst hsame
    cases hfound : entry.supervisors[index]? with
    | none => simp [List.getElem?_modify_eq, hfound]
    | some thread => simp [List.getElem?_modify_eq, hfound, h thread hfound]
  · rw [List.getElem?_modify_ne _ _ hsame]

/-- No step of a thread creates one. -/
theorem OwnStep.births {before after : GwChannelEntry} (h : OwnStep before after) :
    after.births = before.births := by
  have hphase : ∀ {index : Nat} {thread : SupervisorThread} {phase : ThreadPhase},
      before.supervisors[index]? = some thread → thread.created = true →
      (∀ other : SupervisorThread, SupervisorThread.created { other with phase := phase } = true) →
      (before.changeThread index fun thread => { thread with phase := phase }).births =
        before.births := by
    intro index thread phase hfound hcreated hlater
    refine births_changeThread fun other hother => ?_
    rw [hfound, Option.some.injEq] at hother
    rw [hlater, ← hother, hcreated]
  cases h with
  | finishes found phase =>
    exact hphase found (by simp [SupervisorThread.created, phase]) fun _ => rfl
  | thread step =>
    cases step with
    | returns result found phase =>
      exact hphase found (by simp [SupervisorThread.created, phase]) fun _ => rfl
    | stores found phase =>
      exact hphase found (by simp [SupervisorThread.created, phase]) fun _ => rfl
    | observes snapshot found phase publishes => exact births_changeThread fun _ _ => rfl

theorem QuietAct.births {before after : GwChannelEntry} (h : QuietAct before after) :
    after.births = before.births := by
  have hcreated : SupervisorThread.created = fun thread =>
      (⟨thread.progress.1, 0, thread.progress.2⟩ : SupervisorThread).created := rfl
  have hthreads := congrArg (List.map fun progress : ThreadPhase × List GwChannelSnapshot =>
    (⟨progress.1, 0, progress.2⟩ : SupervisorThread).created) h.threads
  rwa [List.map_map, List.map_map] at hthreads

/-! ## Starting a channel by command -/

/-- The supervisor threads and requests to stop, as long as they keep this. -/
def whileSetting (kept : GwChannelManager → Prop) : Setting GwChannelManager (Option Errno) where
  interferes before after := Interferes True before after ∧ kept after
  answers _ := True
  safe _ := True

/-- What is known of a channel whose supervisor runs. -/
structure Busy (channelId : Bytes) (slot : Fin gwMaxChannels) (manager : GwChannelManager) :
    Prop where
  found : findEntry manager channelId = some slot
  started : (manager.entries slot).threadStarted = true
  running : (manager.entries slot).threadRunning = true

/-- What is known of an idle channel of a manager that takes commands, with the threads it
has had. -/
structure Ready (channelId : Bytes) (slot : Fin gwMaxChannels) (births : List Bool)
    (manager : GwChannelManager) : Prop where
  available : manager.started = true ∧ manager.stopSignal = 0
  found : findEntry manager channelId = some slot
  none : ¬ (manager.entries slot).Supervising
  startable : (manager.entries slot).snapshot.Startable
  stopped : (manager.entries slot).threadRunning = false
  born : (manager.entries slot).births = births

section Command

variable {channelId : Bytes} {slot : Fin gwMaxChannels} {manager : GwChannelManager}
  {births : List Bool}

theorem interferes_threadStarted {stoppable : Prop} {before after : GwChannelManager}
    (h : Interferes stoppable before after) (slot : Fin gwMaxChannels) :
    (after.entries slot).threadStarted = (before.entries slot).threadStarted := by
  rcases interferes_entry h slot with hsame | hown
  · rw [hsame]
  · exact hown.kept.threadStarted

theorem interferes_births {stoppable : Prop} {before after : GwChannelManager}
    (h : Interferes stoppable before after) (slot : Fin gwMaxChannels) :
    (after.entries slot).births = (before.entries slot).births := by
  rcases interferes_entry h slot with hsame | hown
  · rw [hsame]
  · exact hown.births

theorem busy_stable :
    (whileSetting fun manager => (manager.entries slot).threadRunning = true).Stable
      (Busy channelId slot) := by
  rintro before after h ⟨hstep, hrunning⟩
  exact ⟨(interferes_findEntry hstep channelId).trans h.found,
    (interferes_threadStarted hstep slot).trans h.started, hrunning⟩

theorem wlp_readEntry_while {α : Type} {f : GwChannelEntry → α} {kept P : GwChannelManager → Prop}
    {post : α → GwChannelManager → Prop} (hstable : (whileSetting kept).Stable P) (h : P manager)
    (hpost : ∀ after, P after → post (f (manager.entries slot)) after) :
    (readEntry slot f).wlp (whileSetting kept) (fun _ => True) post manager :=
  Section.wlp_read P h hstable (fun _ _ => trivial) hpost

/-- A command on a managed channel finds its slot, or is refused as a conflict. -/
theorem wlp_commandEntry {kept P : GwChannelManager → Prop}
    {post : Except GwError (Fin gwMaxChannels) → GwChannelManager → Prop}
    (hstable : (whileSetting kept).Stable P) (h : P manager)
    (hfound : ∀ manager, P manager → findEntry manager channelId = some slot)
    (hok : ∀ after, P after → post (.ok slot) after)
    (hrefused : ∀ first second after error, P first → P second →
      first.started = false ∨ second.stopSignal ≠ 0 → error.code = .errConflict →
      post (.error error) after) :
    (commandEntry channelId).wlp (whileSetting kept) (fun _ => True) post manager := by
  rw [commandEntry, Section.wlp_bind]
  refine Section.wlp_read P h hstable (fun _ _ => trivial) fun second hsecond => ?_
  rw [Section.wlp_bind]
  refine Section.wlp_read P hsecond hstable (fun _ _ => trivial) fun third hthird => ?_
  split
  · rename_i hunavailable
    refine hrefused manager second third _ h hsecond ?_ rfl
    rw [Bool.or_eq_true, Bool.not_eq_true', decide_eq_true_eq] at hunavailable
    exact hunavailable
  · rw [Section.wlp_bind]
    refine Section.wlp_read P hthird hstable (fun _ _ => trivial) fun fourth hfourth => ?_
    rw [hfound third hthird]
    exact hok fourth hfourth

/-- While its supervisor runs a channel is in conflict with every start. -/
theorem startChannel_busy {status : Except GwError Unit} {later : GwChannelManager}
    (h : Busy channelId slot manager)
    (hrun : Section.Runs (whileSetting fun manager => (manager.entries slot).threadRunning = true)
      (gwChannelManagerStartChannel channelId) manager status later) :
    statusOf status = .errConflict := by
  refine @Section.Runs.meetsLiberal _ _ _ _ _ (fun status _ => statusOf status = .errConflict)
    _ _ _ hrun fun before hbefore => ?_
  rw [gwChannelManagerStartChannel, Section.wlp_bind]
  refine wlp_commandEntry busy_stable (busy_stable.later h hbefore) (fun _ h => h.found) ?_
    fun _ _ _ _ _ _ _ hcode => hcode
  intro first hfirst
  rw [Section.wlp_bind]
  refine wlp_readEntry_while busy_stable hfirst fun second hsecond => ?_
  rw [Section.wlp_bind]
  refine wlp_readEntry_while busy_stable hsecond fun third hthird => ?_
  -- the thread is not over, so nothing is joined
  rw [hfirst.started, hsecond.running, Section.wlp_bind]
  refine (Section.wlp_pure () _ third).mpr ?_
  rw [Section.wlp_bind]
  refine wlp_readEntry_while busy_stable hthird fun fourth _ => ?_
  rw [hthird.started]
  exact (gwErrorSet_code _ _)

/-! ### An idle channel -/

/-- A slot that is ready to start stays so while the command waits for the lock. -/
theorem ready_stable :
    (whileSetting fun manager => manager.stopSignal = 0).Stable
      (Ready channelId slot births) := by
  rintro before after h ⟨hstep, hstop⟩
  have hstarted : after.started = before.started := by
    cases hstep <;> rfl
  have hsame : ¬ (after.entries slot).Supervising ∧
      (after.entries slot).snapshot = (before.entries slot).snapshot ∧
      (after.entries slot).threadRunning = false := by
    rcases interferes_entry hstep slot with hkept | hown
    · rw [hkept]
      exact ⟨h.none, rfl, h.stopped⟩
    · exact hown.unsupervised h.none h.stopped
  refine ⟨⟨hstarted.trans h.available.1, hstop⟩,
    (interferes_findEntry hstep channelId).trans h.found, hsame.1, ?_, hsame.2.2,
    (interferes_births hstep slot).trans h.born⟩
  rw [hsame.2.1]
  exact h.startable

/-- An act that starts no supervisor leaves the channel idle. -/
theorem Ready.quiet {before after : GwChannelManager} (h : Ready channelId slot births before)
    (hact : OnSlot QuietAct slot before after) : Ready channelId slot births after := by
  have hentry : after.entries slot = before.entries slot ∨
      QuietAct (before.entries slot) (after.entries slot) := hact.here
  have hquiet : QuietAct (before.entries slot) (after.entries slot) := by
    rcases hentry with hkept | hquiet
    · rw [hkept]
      exact ⟨⟨rfl, rfl, rfl, rfl, rfl, rfl⟩, rfl, rfl⟩
    · exact hquiet
  refine ⟨⟨hact.started.trans h.available.1, hact.stopSignal.trans h.available.2⟩, ?_, ?_, ?_, ?_,
    hquiet.births.trans h.born⟩
  · refine (findEntry_congr (fun other => ?_) channelId).trans h.found
    by_cases hsame : other = slot
    · rw [hsame]
      exact ⟨hquiet.setup.occupied, hquiet.setup.runConfig⟩
    · rw [hact.others other hsame]
      exact ⟨rfl, rfl⟩
  · exact fun hrunning => h.none (hquiet.supervising hrunning)
  · rw [hquiet.setup.snapshot]
    exact h.startable
  · exact hquiet.threadRunning.trans h.stopped

/-- The same, and that the slot holds no thread unless it did when this was read. -/
def ReadyAs (channelId : Bytes) (slot : Fin gwMaxChannels) (births : List Bool) (started : Bool)
    (manager : GwChannelManager) : Prop :=
  Ready channelId slot births manager ∧ (started = false → (manager.entries slot).threadStarted = false)

theorem readyAs_stable (started : Bool) :
    (whileSetting fun manager => manager.stopSignal = 0).Stable
      (ReadyAs channelId slot births started) := by
  rintro before after ⟨h, hfree⟩ hstep
  refine ⟨ready_stable _ _ h hstep, fun hnot => ?_⟩
  exact (interferes_threadStarted hstep.1 slot).trans (hfree hnot)

/-- Joining the thread that has ended leaves the channel idle. -/
theorem wlp_reapEntry_ready {post : Unit → GwChannelManager → Prop}
    (h : Ready channelId slot births manager)
    (hpost : ∀ after, ReadyAs channelId slot births false after → post () after) :
    (reapEntry slot).wlp (whileSetting fun manager => manager.stopSignal = 0) (fun _ => True) post
      manager := by
  rw [reapEntry, Section.wlp_bind]
  refine Section.wlp_step (fun _ => Ready channelId slot births) ?_ (fun _ => ready_stable)
    (fun _ _ _ => trivial) fun _ after hafter => ?_
  · intro answer result after _ heq _
    rw [Option.map_eq_some_iff] at heq
    obtain ⟨entry, hjoin, heq⟩ := heq
    rw [Prod.mk.injEq] at heq
    rw [← heq.2]
    exact h.quiet (onSlot_setEntry (quietAct_join hjoin) manager.activeThreads)
  · rw [Section.wlp_done]
    refine Section.wlp_write (ReadyAs channelId slot births false) (fun _ => ⟨?_, fun _ => ?_⟩)
      (readyAs_stable false) (fun _ _ => trivial) hpost
    · exact hafter.quiet (onSlot_setEntry (quietAct_control _ _ _ false) after.activeThreads)
    · rw [setEntry_self]

/-- What a start of a channel comes to that had these threads: one more thread, and `GW_OK`
when it was created. -/
def StartsThread (slot : Fin gwMaxChannels) (births : List Bool) (status : Except GwError Unit)
    (later : GwChannelManager) : Prop :=
  (statusOf status = .ok ∧ (later.entries slot).births = births ++ [true]) ∨
    (statusOf status = .errIo ∧ (later.entries slot).births = births ++ [false])

section Births

variable {kept : GwChannelManager → Prop}

theorem births_stable :
    (whileSetting kept).Stable fun manager => (manager.entries slot).births = births := by
  rintro before after h ⟨hstep, -⟩
  exact (interferes_births hstep slot).trans h

/-- A write of a slot that leaves its threads. -/
theorem wlp_updateEntry_births {f : GwChannelEntry → GwChannelEntry}
    {post : Unit → GwChannelManager → Prop} (h : (manager.entries slot).births = births)
    (hf : ∀ entry, (f entry).births = entry.births)
    (hpost : ∀ after, (after.entries slot).births = births → post () after) :
    (updateEntry slot f).wlp (whileSetting kept) (fun _ => True) post manager := by
  refine Section.wlp_write (fun manager => (manager.entries slot).births = births) (fun _ => ?_)
    births_stable (fun _ _ => trivial) hpost
  rw [setEntry_self, hf, h]

theorem births_announced (entry : GwChannelEntry) :
    entry.announced.births = entry.births ++ [false] := by
  simp [GwChannelEntry.births, GwChannelEntry.announced, SupervisorThread.created]

/-- The thread announced last changes its phase. -/
theorem births_changeLast {entry : GwChannelEntry} {before after : Bool} {phase : ThreadPhase}
    (h : entry.births = births ++ [before])
    (hafter : ∀ thread : SupervisorThread,
      SupervisorThread.created { thread with phase := phase } = after) :
    (entry.changeThread (entry.supervisors.length - 1) fun thread =>
      { thread with phase := phase }).births = births ++ [after] := by
  have hlength : entry.supervisors.length - 1 = births.length := by
    have hcount := congrArg List.length h
    simp only [GwChannelEntry.births, List.length_map, List.length_append,
      List.length_singleton] at hcount
    omega
  rw [hlength]
  refine List.ext_getElem? fun index => ?_
  have hindex := congrArg (fun list : List Bool => list[index]?) h
  simp only [GwChannelEntry.births, List.getElem?_map] at hindex
  simp only [GwChannelEntry.births, GwChannelEntry.changeThread, List.getElem?_map,
    List.getElem?_modify]
  by_cases hlast : births.length = index
  · subst hlast
    rw [List.getElem?_concat_length] at hindex ⊢
    obtain ⟨thread, hthread, -⟩ := Option.map_eq_some_iff.mp hindex
    simp [hthread, hafter]
  · simp only [if_neg hlast, id_map']
    rw [hindex]
    by_cases hlt : index < births.length
    · rw [List.getElem?_append_left hlt, List.getElem?_append_left hlt]
    · rw [List.getElem?_eq_none (by simp; omega), List.getElem?_eq_none (by simp; omega)]

/-- The thread that was announced last is created or not. -/
theorem births_afterCreate {entry : GwChannelEntry} (h : entry.births = births ++ [false])
    (answer : Option Errno) : (entry.afterCreate answer).births = births ++ [answer.isNone] := by
  cases answer with
  | none => exact births_changeLast h fun _ => rfl
  | some errno => exact births_changeLast h fun _ => rfl

/-- `start_entry` announces one thread. -/
theorem wlp_startEntry (h : (manager.entries slot).births = births) :
    (startEntry slot).wlp (whileSetting kept) (fun _ => True) (StartsThread slot births)
      manager := by
  rw [startEntry, Section.wlp_bind]
  refine wlp_updateEntry_births h (fun _ => rfl) fun first hfirst => ?_
  rw [Section.wlp_bind]
  refine wlp_updateEntry_births hfirst (fun _ => rfl) fun second hsecond => ?_
  rw [Section.wlp_bind]
  refine wlp_updateEntry_births hsecond (fun _ => rfl) fun third hthird => ?_
  rw [Section.wlp_bind]
  refine Section.wlp_write (fun manager => (manager.entries slot).births = births ++ [false])
    (fun _ => ?_) births_stable (fun _ _ => trivial) fun fourth hfourth => ?_
  · rw [← hthird, ← births_announced]
    exact congrArg GwChannelEntry.births (setEntry_self third slot _)
  rw [Section.wlp_bind]
  refine Section.wlp_step (fun answer manager => (manager.entries slot).births =
    births ++ [answer.isNone]) ?_ (fun _ => births_stable) (fun _ _ _ => trivial)
    fun answer fifth hfifth => ?_
  · intro answer result after _ heq _
    rw [Option.some.injEq, Prod.mk.injEq] at heq
    rw [← heq.1, ← heq.2, setEntry_self, births_afterCreate hfourth]
  · rw [Section.wlp_done]
    cases answer with
    | none =>
      rw [Section.wlp_bind]
      refine wlp_updateEntry_births hfifth (fun _ => rfl) fun sixth hsixth => ?_
      exact .inl ⟨rfl, hsixth⟩
    | some errno =>
      rw [Section.wlp_bind]
      refine Section.wlp_write (fun manager => (manager.entries slot).births = births ++ [false])
        (fun _ => ?_) births_stable (fun _ _ => trivial) fun sixth hsixth => ?_
      · have hretracted : (fifth.entries slot).retracted.births = births ++ [false] :=
          births_changeLast hfifth fun _ => rfl
        have hself := setEntry_self fifth slot (fifth.entries slot).retracted
        exact (congrArg GwChannelEntry.births hself).trans hretracted
      rw [Section.wlp_bind]
      refine wlp_updateEntry_births hsixth (fun _ => rfl) fun seventh hseventh => ?_
      rw [Section.wlp_bind]
      refine Section.wlp_read _ hseventh births_stable (fun _ _ => trivial) fun eighth heighth => ?_
      exact .inr ⟨rfl, heighth⟩

end Births

/-- A start of an idle channel starts a thread. -/
theorem startChannel_ready {status : Except GwError Unit} {later : GwChannelManager}
    (h : Ready channelId slot births manager)
    (hrun : Section.Runs (whileSetting fun manager => manager.stopSignal = 0)
      (gwChannelManagerStartChannel channelId) manager status later) :
    StartsThread slot births status later := by
  refine @Section.Runs.meetsLiberal _ _ _ _ _ (StartsThread slot births)
    _ _ _ hrun fun before hbefore => ?_
  rw [gwChannelManagerStartChannel, Section.wlp_bind]
  refine wlp_commandEntry ready_stable (ready_stable.later h hbefore) (fun _ h => h.found) ?_ ?_
  · intro first hfirst
    rw [Section.wlp_bind]
    refine wlp_readEntry_while (readyAs_stable (first.entries slot).threadStarted)
      ⟨hfirst, fun h => h⟩ fun second hsecond => ?_
    rw [Section.wlp_bind]
    refine wlp_readEntry_while (readyAs_stable _) hsecond fun third hthird => ?_
    rw [hsecond.1.stopped, Section.wlp_bind]
    generalize (first.entries slot).threadStarted = started at hthird ⊢
    have hreaped : (runWhen (started && !false) (reapEntry slot)).wlp
        (whileSetting fun manager => manager.stopSignal = 0) (fun _ => True)
        (fun _ => ReadyAs channelId slot births false) third := by
      cases started with
      | false => exact hthird
      | true => exact wlp_reapEntry_ready hthird.1 fun after h => h
    refine Section.wlp_mono hreaped fun _ fourth hfourth => ?_
    rw [Section.wlp_bind]
    refine wlp_readEntry_while (readyAs_stable false) hfourth fun fifth hfifth => ?_
    rw [hfourth.2 rfl, if_neg (by simp), Section.wlp_bind]
    refine wlp_readEntry_while (readyAs_stable false) hfifth fun sixth hsixth => ?_
    have hstate : ¬ ((fifth.entries slot).snapshot.state ≠ .stopped ∧
        (fifth.entries slot).snapshot.state ≠ .failed) := by
      rintro ⟨hstopped, hfailed⟩
      exact hfifth.1.startable.1.elim hstopped hfailed
    rw [if_neg hstate]
    exact wlp_startEntry hsixth.1.born
  · intro first second after error hfirst hsecond hrefused _
    rcases hrefused with hnot | hstopping
    · rw [hfirst.available.1] at hnot
      cases hnot
    · exact absurd hsecond.available.2 hstopping

end Command

/-! ## The main result -/

section Main

variable {answers : CreateAnswers} {config : GwConfig} {options : GwSupervisorOptions}
  {manager : GwChannelManager} {monitor : Monitor GwChannelManager (Option Errno)}

/-- Between two sections a running thread is the one the slot holds. -/
theorem ManagerInv.started_of_running {slot : Fin gwMaxChannels} (h : ManagerInv manager)
    (hrunning : (manager.entries slot).Running) : (manager.entries slot).threadStarted = true := by
  obtain ⟨view, ⟨stages, hresting⟩, -⟩ := h
  obtain ⟨index, thread, hfound, hphase⟩ := hrunning
  have hlive : thread.live = true := by
    rcases hphase with hphase | hphase <;> simp [SupervisorThread.live, hphase]
  have hok := hresting.assertion.slots slot
  rcases hresting.rest slot with hfree | hheld
  · rw [hfree] at hok
    have hover := (hok.2.ended thread (List.mem_of_getElem? hfound)).not_live
    rw [hover] at hlive
    cases hlive
  · rw [hheld] at hok
    exact hok.1

/-- An idle channel can always be started: where no supervisor runs an occupied slot shows
a stopped or failed channel without a process, and `gw_channel_manager_start_channel`
announces one more thread and returns `GW_OK` when it is created, `GW_ERR_IO` when it is
not, and never a conflict; it always reports one while a supervisor runs. -/
theorem idle_channel_starts
    (hcreate : gwChannelManagerCreate answers config options = .ok manager)
    (hrun : ManagerRun RunsComplete ⟨manager, [], none⟩ monitor) :
    (∀ slot, (monitor.world.entries slot).occupied = true →
      (monitor.world.entries slot).threadRunning = false ∨
        ¬ (monitor.world.entries slot).Supervising →
      (monitor.world.entries slot).snapshot.Startable) ∧
    (monitor.inside = none → ∀ channelId slot, findEntry monitor.world channelId = some slot →
      ((monitor.world.entries slot).threadRunning = false → monitor.world.started = true →
        monitor.world.stopSignal = 0 →
        ∀ status later, Section.Runs (whileSetting fun manager => manager.stopSignal = 0)
          (gwChannelManagerStartChannel channelId) monitor.world status later →
          statusOf status ≠ .errConflict ∧
            StartsThread slot (monitor.world.entries slot).births status later) ∧
      ((monitor.world.entries slot).threadRunning = true →
        ∀ status later, Section.Runs
          (whileSetting fun manager => (manager.entries slot).threadRunning = true)
          (gwChannelManagerStartChannel channelId) monitor.world status later →
          statusOf status = .errConflict)) := by
  have hkept := kept_of_run hcreate hrun
  constructor
  · intro slot hoccupied hidle
    have hshows := hkept.safe slot
    apply hshows.idle hoccupied
    exact hidle.elim hshows.flag id
  · intro hfree channelId slot hfound
    have hslot := (hkept.free hfree).slots slot
    have hoccupied : (monitor.world.entries slot).occupied = true := by
      have hmatch := List.find?_some hfound
      rw [Bool.and_eq_true] at hmatch
      exact hmatch.1
    constructor
    · intro hflag hstarted hstop status later hcall
      have hnone := hslot.flag hflag
      have hstarts := startChannel_ready
        ⟨⟨hstarted, hstop⟩, hfound, hnone, hslot.idle hoccupied hnone, hflag, rfl⟩ hcall
      refine ⟨fun hconflict => ?_, hstarts⟩
      rcases hstarts with ⟨hstatus, -⟩ | ⟨hstatus, -⟩ <;> rw [hstatus] at hconflict <;>
        cases hconflict
    · intro hflag status later hcall
      have hinv := managerInv_of_reaches hcreate (Monitor.Reaches.start.runs hrun)
      have hheld := (hinv.free hfree).started_of_running (hslot.running hflag)
      exact startChannel_busy ⟨hfound, hheld, hflag⟩ hcall

/-- No thread leaves `gw_supervisor_run`. -/
def keepsSupervising (before after : GwChannelManager) : Bool :=
  slots.all fun slot =>
    ((before.entries slot).supervisors.zip (after.entries slot).supervisors).all fun threads =>
      threads.1.phase ≠ .supervising || threads.2.phase = .supervising

theorem runsComplete_of_kept (before after : GwChannelManager)
    (h : keepsSupervising before after = true) : RunsComplete before after := by
  intro slot index earlier thread hearlier hthread hbefore hafter
  have hslot := List.all_eq_true.mp h slot (List.mem_finRange slot)
  have hpair : ((before.entries slot).supervisors.zip (after.entries slot).supervisors)[index]? =
      some (earlier, thread) := by
    rw [List.getElem?_zip_eq_some]
    exact ⟨hearlier, hthread⟩
  have hkept := List.all_eq_true.mp hslot _ (List.mem_of_getElem? hpair)
  simp [hbefore, hafter] at hkept

/-- The manager once it is started, with its supervisors running. -/
def supervisedManager : Option GwChannelManager :=
  createdManager.toOption.bind fun manager =>
    (LifecycleCall.start.body.evaluateBy keepsSupervising none manager).map Prod.snd

theorem run_supervised (h : supervisedManager = some manager) :
    ∃ created, createdManager = .ok created ∧
      ManagerRun RunsComplete ⟨created, [], none⟩ ⟨manager, [], none⟩ := by
  obtain ⟨created, hcreated, hstart⟩ := Option.bind_eq_some_iff.mp h
  obtain ⟨⟨value, after⟩, heq, rfl⟩ := Option.map_eq_some_iff.mp hstart
  refine ⟨created, createdManager_ok hcreated, Monitor.RunsBy.evaluateBy ?_ runsComplete_of_kept
    trivial ⟨.start, rfl, rfl⟩ heq⟩
  intro world slot index earlier thread hearlier hthread hbefore hafter
  rw [hearlier, Option.some.injEq] at hthread
  exact absurd (hthread ▸ hbefore) hafter

theorem idle_channel_starts_running :
    (supervisedManager.map fun manager =>
        ((manager.entries firstSlot).threadRunning, findEntry manager (ascii "front"))) =
      some (true, some firstSlot) ∧
      ∀ manager, supervisedManager = some manager → ∀ status later,
        Section.Runs (whileSetting fun manager => (manager.entries firstSlot).threadRunning = true)
          (gwChannelManagerStartChannel (ascii "front")) manager status later →
        statusOf status = .errConflict := by
  have hreport : (supervisedManager.map fun manager =>
      ((manager.entries firstSlot).threadRunning, findEntry manager (ascii "front"))) =
        some (true, some firstSlot) := by decide +kernel
  refine ⟨hreport, fun manager h status later hcall => ?_⟩
  rw [h, Option.map_some, Option.some.injEq, Prod.mk.injEq] at hreport
  obtain ⟨created, hcreated, hrun⟩ := run_supervised h
  exact ((idle_channel_starts hcreated hrun).2 rfl (ascii "front") firstSlot hreport.2).2 hreport.1
    status later hcall

end Main

end LearnApue.Gateway
