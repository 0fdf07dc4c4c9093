import LearnApue.Gateway.ChannelManager

set_option autoImplicit false

/-!
# Gateway: the supervisor threads of the channel manager

`SlotOk` says for each stage of a slot which threads it has: all of them are over but
at most the last, and only the slot's handle leads to a thread that is not joined.
`At` puts the stages of all slots, the counter and what only the lock's holder
changes into one assertion, which no supervisor thread ends; every section is proved
with assertions of this form.
-/

namespace LearnApue.Gateway

open LearnApue.Foundation

/-! ## One slot -/

/-- Where the lock's holder is with a slot. -/
inductive SlotStage where
  /-- no thread -/
  | free
  /-- counted, before `pthread_create` -/
  | announced
  /-- counted, after a failed `pthread_create` -/
  | failed
  /-- after `pthread_create`, before `thread_started` is set -/
  | created
  /-- with a thread -/
  | held
  /-- after `pthread_join`, before `thread_started` is cleared -/
  | joined
  deriving DecidableEq

/-- A thread that needs nothing more: joined once, or never created. -/
def SupervisorThread.Over (thread : SupervisorThread) : Prop :=
  (thread.phase = .finished ∧ thread.joins = 1) ∨ (thread.phase = .abandoned ∧ thread.joins = 0)

/-- All threads of the slot are over but the last, which is newer than the slot's
configuration. -/
structure GwChannelEntry.EndsWith (entry : GwChannelEntry) (front : List SupervisorThread)
    (last : SupervisorThread) : Prop where
  ended : ∀ thread ∈ front, thread.Over
  split : entry.supervisors = front ++ [last]
  newer : entry.configuredAt ≤ front.length

/-- All threads of the slot are over. -/
structure GwChannelEntry.AllOver (entry : GwChannelEntry) : Prop where
  ended : ∀ thread ∈ entry.supervisors, thread.Over
  configured : entry.configuredAt ≤ entry.supervisors.length

/-- The slot's handle is its last thread, which is not joined. -/
def GwChannelEntry.Owns (entry : GwChannelEntry) : Prop :=
  ∃ front last, entry.EndsWith front last ∧ entry.thread = some front.length ∧
    last.created = true ∧ last.joins = 0

/-- What a slot is like at each stage. -/
def SlotOk : SlotStage → GwChannelEntry → Prop
  | .free, entry => entry.threadStarted = false ∧ entry.AllOver
  | .announced, entry =>
      entry.threadStarted = false ∧ entry.occupied = true ∧
        ∃ front, entry.EndsWith front ⟨.announced, 0, []⟩
  | .failed, entry =>
      entry.threadStarted = false ∧ entry.occupied = true ∧
        ∃ front, entry.EndsWith front ⟨.creationFailed, 0, []⟩
  | .created, entry => entry.threadStarted = false ∧ entry.occupied = true ∧ entry.Owns
  | .held, entry => entry.threadStarted = true ∧ entry.occupied = true ∧ entry.Owns
  | .joined, entry => entry.threadStarted = true ∧ entry.occupied = true ∧ entry.AllOver

/-- The threads of a slot that `active_threads` counts. -/
def GwChannelEntry.countedThreads (entry : GwChannelEntry) : Nat :=
  entry.supervisors.countP SupervisorThread.counted

section Slot

variable {entry : GwChannelEntry} {front : List SupervisorThread} {last : SupervisorThread}

theorem SupervisorThread.Over.not_counted {thread : SupervisorThread} (h : thread.Over) :
    thread.counted = false := by
  rcases h with ⟨hphase, -⟩ | ⟨hphase, -⟩ <;> simp [SupervisorThread.counted, hphase]

theorem SupervisorThread.Over.not_live {thread : SupervisorThread} (h : thread.Over) :
    thread.live = false := by
  rcases h with ⟨hphase, -⟩ | ⟨hphase, -⟩ <;> simp [SupervisorThread.live, hphase]

theorem modify_last (change : SupervisorThread → SupervisorThread) :
    (front ++ [last]).modify front.length change = front ++ [change last] := by
  induction front with
  | nil => rfl
  | cons head rest ih => simp only [List.cons_append, List.length_cons, List.modify_succ_cons, ih]

theorem GwChannelEntry.AllOver.countedThreads (h : entry.AllOver) : entry.countedThreads = 0 :=
  List.countP_eq_zero.mpr fun thread hthread => by simp [(h.ended thread hthread).not_counted]

theorem GwChannelEntry.EndsWith.countedThreads (h : entry.EndsWith front last) :
    entry.countedThreads = if last.counted then 1 else 0 := by
  unfold GwChannelEntry.countedThreads
  rw [h.split, List.countP_append, List.countP_singleton,
    List.countP_eq_zero.mpr fun thread hthread => by simp [(h.ended thread hthread).not_counted],
    Nat.zero_add]

/-- A change of the last thread. -/
theorem GwChannelEntry.EndsWith.change (h : entry.EndsWith front last)
    (change : SupervisorThread → SupervisorThread) :
    (entry.changeThread front.length change).EndsWith front (change last) := by
  refine ⟨h.ended, ?_, h.newer⟩
  simp only [GwChannelEntry.changeThread, h.split, modify_last]

theorem GwChannelEntry.EndsWith.length (h : entry.EndsWith front last) :
    entry.supervisors.length - 1 = front.length := by
  rw [h.split]
  simp

theorem GwChannelEntry.EndsWith.last_found (h : entry.EndsWith front last) :
    entry.supervisors[front.length]? = some last := by
  rw [h.split, List.getElem?_append_right (le_refl _), Nat.sub_self]
  rfl

/-- When the last thread is over as well, all are. -/
theorem GwChannelEntry.EndsWith.allOver (h : entry.EndsWith front last) (hlast : last.Over) :
    entry.AllOver := by
  constructor
  · rw [h.split]
    intro thread hthread
    rcases List.mem_append.mp hthread with hfront | hone
    · exact h.ended thread hfront
    · rw [List.mem_singleton.mp hone]
      exact hlast
  · rw [h.split, List.length_append]
    exact Nat.le_add_right_of_le h.newer

/-- Only the last thread can be live. -/
theorem GwChannelEntry.EndsWith.live (h : entry.EndsWith front last) {index : Nat}
    {thread : SupervisorThread} (hfound : entry.supervisors[index]? = some thread)
    (hlive : thread.live = true) : index = front.length ∧ thread = last := by
  rw [h.split] at hfound
  by_cases hbefore : index < front.length
  · rw [List.getElem?_append_left hbefore] at hfound
    have hover := (h.ended thread (List.mem_of_getElem? hfound)).not_live
    rw [hover] at hlive
    cases hlive
  · rw [List.getElem?_append_right (by omega)] at hfound
    have hindex : index - front.length < 1 := by
      have := (List.getElem?_eq_some_iff.mp hfound).1
      simpa using this
    have hzero : index - front.length = 0 := by omega
    rw [hzero] at hfound
    simp only [List.getElem?_cons_zero, Option.some.injEq] at hfound
    exact ⟨by omega, hfound.symm⟩

theorem GwChannelEntry.AllOver.congr (h : entry.AllOver) {other : GwChannelEntry}
    (hsupervisors : other.supervisors = entry.supervisors)
    (hconfigured : other.configuredAt = entry.configuredAt) : other.AllOver := by
  refine ⟨?_, ?_⟩
  · rw [hsupervisors]
    exact h.ended
  · rw [hsupervisors, hconfigured]
    exact h.configured

theorem GwChannelEntry.EndsWith.congr (h : entry.EndsWith front last) {other : GwChannelEntry}
    (hsupervisors : other.supervisors = entry.supervisors)
    (hconfigured : other.configuredAt = entry.configuredAt) : other.EndsWith front last :=
  ⟨h.ended, hsupervisors.trans h.split, hconfigured.trans_le h.newer⟩

theorem GwChannelEntry.Owns.congr (h : entry.Owns) {other : GwChannelEntry}
    (hthread : other.thread = entry.thread) (hsupervisors : other.supervisors = entry.supervisors)
    (hconfigured : other.configuredAt = entry.configuredAt) : other.Owns := by
  obtain ⟨front, last, hends, hhandle, hlast⟩ := h
  exact ⟨front, last, hends.congr hsupervisors hconfigured, hthread.trans hhandle, hlast⟩

/-- A stage is about the threads of a slot and two of its flags. -/
theorem SlotOk.congr {stage : SlotStage} (h : SlotOk stage entry) {other : GwChannelEntry}
    (hoccupied : other.occupied = entry.occupied) (hthread : other.thread = entry.thread)
    (hstarted : other.threadStarted = entry.threadStarted)
    (hsupervisors : other.supervisors = entry.supervisors)
    (hconfigured : other.configuredAt = entry.configuredAt) : SlotOk stage other := by
  cases stage with
  | free => exact ⟨hstarted.trans h.1, h.2.congr hsupervisors hconfigured⟩
  | joined =>
    exact ⟨hstarted.trans h.1, hoccupied.trans h.2.1, h.2.2.congr hsupervisors hconfigured⟩
  | announced | failed =>
    obtain ⟨hnot, hocc, front, hends⟩ := h
    exact ⟨hstarted.trans hnot, hoccupied.trans hocc, front, hends.congr hsupervisors hconfigured⟩
  | created | held =>
    exact ⟨hstarted.trans h.1, hoccupied.trans h.2.1,
      h.2.2.congr hthread hsupervisors hconfigured⟩

/-- At most one thread of a slot is counted. -/
theorem SlotOk.countedThreads_le {stage : SlotStage} (h : SlotOk stage entry) :
    entry.countedThreads ≤ 1 := by
  cases stage with
  | free => rw [h.2.countedThreads]; omega
  | joined => rw [h.2.2.countedThreads]; omega
  | announced | failed =>
    obtain ⟨-, -, front, hends⟩ := h
    rw [hends.countedThreads]
    split <;> omega
  | created | held =>
    obtain ⟨-, -, front, last, hends, -⟩ := h
    rw [hends.countedThreads]
    split <;> omega

/-- A slot with a live thread owns it. -/
theorem SlotOk.owns_of_live {stage : SlotStage} (h : SlotOk stage entry) {index : Nat}
    {thread : SupervisorThread} (hfound : entry.supervisors[index]? = some thread)
    (hlive : thread.live = true) :
    (stage = .created ∨ stage = .held) ∧
      ∃ front, entry.EndsWith front thread ∧ entry.thread = some front.length ∧
        index = front.length ∧ thread.joins = 0 := by
  have hmem := List.mem_of_getElem? hfound
  cases stage with
  | free => simp [(h.2.ended thread hmem).not_live] at hlive
  | joined => simp [(h.2.2.ended thread hmem).not_live] at hlive
  | announced | failed =>
    obtain ⟨-, -, front, hends⟩ := h
    obtain ⟨-, rfl⟩ := hends.live hfound hlive
    simp [SupervisorThread.live] at hlive
  | created =>
    obtain ⟨-, -, front, last, hends, hthread, -, hjoins⟩ := h
    obtain ⟨hindex, rfl⟩ := hends.live hfound hlive
    exact ⟨Or.inl rfl, front, hends, hthread, hindex, hjoins⟩
  | held =>
    obtain ⟨-, -, front, last, hends, hthread, -, hjoins⟩ := h
    obtain ⟨hindex, rfl⟩ := hends.live hfound hlive
    exact ⟨Or.inr rfl, front, hends, hthread, hindex, hjoins⟩

end Slot

/-! ## All slots -/

/-- The configuration an occupied slot runs. -/
def GwChannelEntry.placed (entry : GwChannelEntry) : Option GwConfig :=
  if entry.occupied then some entry.runConfig else none

/-- What only the lock's holder changes. -/
structure ManagerView where
  config : GwConfig
  started : Bool
  placed : Fin gwMaxChannels → Option GwConfig

/-- What only the lock's holder changes in a manager. -/
def GwChannelManager.view (manager : GwChannelManager) : ManagerView :=
  ⟨manager.config, manager.started, fun slot => (manager.entries slot).placed⟩

@[simp] theorem setEntry_self (manager : GwChannelManager) (slot : Fin gwMaxChannels)
    (entry : GwChannelEntry) : (manager.setEntry slot entry).entries slot = entry :=
  Function.update_self ..

theorem setEntry_of_ne (manager : GwChannelManager) {slot other : Fin gwMaxChannels}
    (entry : GwChannelEntry) (h : other ≠ slot) :
    (manager.setEntry slot entry).entries other = manager.entries other :=
  Function.update_of_ne h ..

/-- A view with one slot changed. -/
def ManagerView.place (view : ManagerView) (slot : Fin gwMaxChannels)
    (run : Option GwConfig) : ManagerView :=
  { view with placed := Function.update view.placed slot run }

/-- The threads that `active_threads` counts. -/
def GwChannelManager.countedThreads (manager : GwChannelManager) : Nat :=
  ∑ slot, (manager.entries slot).countedThreads

/-- The stages of the slots, the counter, and the view. -/
structure At (stages : Fin gwMaxChannels → SlotStage) (view : ManagerView)
    (manager : GwChannelManager) : Prop where
  slots : ∀ slot, SlotOk (stages slot) (manager.entries slot)
  counter : manager.activeThreads = manager.countedThreads % 2 ^ 64
  view : manager.view = view

/-- What holds in every state: each slot is at some stage, and the counter is right. -/
structure ManagerSafe (manager : GwChannelManager) : Prop where
  slots : ∀ slot, ∃ stage, SlotOk stage (manager.entries slot)
  counter : manager.activeThreads = manager.countedThreads % 2 ^ 64

theorem At.safe {stages : Fin gwMaxChannels → SlotStage} {view : ManagerView}
    {manager : GwChannelManager} (h : At stages view manager) : ManagerSafe manager :=
  ⟨fun slot => ⟨stages slot, h.slots slot⟩, h.counter⟩

theorem countedThreads_setEntry (manager : GwChannelManager) (slot : Fin gwMaxChannels)
    (entry : GwChannelEntry) :
    (manager.setEntry slot entry).countedThreads + (manager.entries slot).countedThreads =
      manager.countedThreads + entry.countedThreads := by
  have hrest : ∑ other ∈ Finset.univ.erase slot,
      ((manager.setEntry slot entry).entries other).countedThreads =
        ∑ other ∈ Finset.univ.erase slot, (manager.entries other).countedThreads := by
    refine Finset.sum_congr rfl fun other hother => ?_
    rw [setEntry_of_ne _ _ (Finset.ne_of_mem_erase hother)]
  have hnew := Finset.sum_erase_add Finset.univ
    (fun other => ((manager.setEntry slot entry).entries other).countedThreads)
    (Finset.mem_univ slot)
  have hold := Finset.sum_erase_add Finset.univ
    (fun other => (manager.entries other).countedThreads) (Finset.mem_univ slot)
  simp only [setEntry_self] at hnew
  unfold GwChannelManager.countedThreads
  omega

section Assertion

variable {stoppable : Prop} {stages : Fin gwMaxChannels → SlotStage} {view : ManagerView}
  {manager : GwChannelManager} {slot : Fin gwMaxChannels} {stage : SlotStage}
  {entry : GwChannelEntry}

/-- A slot moves to a stage, and the counter with it. -/
theorem At.move (h : At stages view manager) (hok : SlotOk stage entry) (active : Nat)
    (hactive : active = (manager.setEntry slot entry).countedThreads % 2 ^ 64) :
    At (Function.update stages slot stage) (view.place slot entry.placed)
      { manager.setEntry slot entry with activeThreads := active } := by
  refine ⟨?_, hactive, ?_⟩
  · intro other
    by_cases hsame : other = slot
    · subst hsame
      simp only [setEntry_self, Function.update_self]
      exact hok
    · simp only [setEntry_of_ne _ _ hsame, Function.update_of_ne hsame]
      exact h.slots other
  · rw [← h.view]
    simp only [GwChannelManager.view, ManagerView.place, ManagerView.mk.injEq]
    refine ⟨rfl, rfl, ?_⟩
    funext other
    by_cases hsame : other = slot
    · subst hsame
      simp only [setEntry_self, Function.update_self]
    · simp only [setEntry_of_ne _ _ hsame, Function.update_of_ne hsame]

theorem ManagerView.place_self (view : ManagerView) (slot : Fin gwMaxChannels) :
    view.place slot (view.placed slot) = view := by
  simp only [ManagerView.place, Function.update_eq_self]

theorem At.placed (h : At stages view manager) (slot : Fin gwMaxChannels) :
    (manager.entries slot).placed = view.placed slot := by
  rw [← h.view]
  rfl

theorem At.occupied (h : At stages view manager) (slot : Fin gwMaxChannels) :
    (manager.entries slot).occupied = (view.placed slot).isSome := by
  rw [← h.placed, GwChannelEntry.placed]
  cases (manager.entries slot).occupied <;> rfl

/-- A slot moves to a stage with as many counted threads. -/
theorem At.replace (h : At stages view manager) (hok : SlotOk stage entry)
    (hcounted : entry.countedThreads = (manager.entries slot).countedThreads) :
    At (Function.update stages slot stage) (view.place slot entry.placed)
      (manager.setEntry slot entry) := by
  have htotal := countedThreads_setEntry manager slot entry
  have hsame : (manager.setEntry slot entry).countedThreads = manager.countedThreads := by omega
  exact h.move hok manager.activeThreads (by rw [hsame, h.counter])

/-- A slot moves to a stage and runs what it ran. -/
theorem At.advance (h : At stages view manager) (hok : SlotOk stage entry)
    (hcounted : entry.countedThreads = (manager.entries slot).countedThreads)
    (hplaced : entry.placed = (manager.entries slot).placed) :
    At (Function.update stages slot stage) view (manager.setEntry slot entry) := by
  have hmoved := h.replace hok hcounted
  rw [hplaced, h.placed slot, view.place_self] at hmoved
  exact hmoved

/-- A slot stays at its stage. -/
theorem At.keep (h : At stages view manager) (hok : SlotOk (stages slot) entry)
    (hcounted : entry.countedThreads = (manager.entries slot).countedThreads)
    (hplaced : entry.placed = (manager.entries slot).placed) :
    At stages view (manager.setEntry slot entry) := by
  have hmoved := h.advance hok hcounted hplaced
  rw [Function.update_eq_self] at hmoved
  exact hmoved

/-! ### Interference -/

/-- A change of a live thread, which stays a created one, keeps its slot's stage. -/
theorem SlotOk.change_live (h : SlotOk stage entry) {index : Nat} {thread : SupervisorThread}
    (hfound : entry.supervisors[index]? = some thread) (hlive : thread.live = true)
    (change : SupervisorThread → SupervisorThread) (hcreated : (change thread).created = true)
    (hjoins : (change thread).joins = thread.joins) :
    SlotOk stage (entry.changeThread index change) ∧
      (entry.changeThread index change).countedThreads =
        if (change thread).counted then 1 else 0 := by
  obtain ⟨hstage, front, hends, hthread, hindex, hnever⟩ := h.owns_of_live hfound hlive
  subst hindex
  have hchanged := hends.change change
  have howns : (entry.changeThread front.length change).Owns :=
    ⟨front, _, hchanged, hthread, hcreated, hjoins.trans hnever⟩
  constructor
  · rcases hstage with rfl | rfl
    · exact ⟨h.1, h.2.1, howns⟩
    · exact ⟨h.1, h.2.1, howns⟩
  · exact hchanged.countedThreads

/-- Before its decrement a live thread is counted. -/
theorem SlotOk.counted_of_live (h : SlotOk stage entry) {index : Nat} {thread : SupervisorThread}
    (hfound : entry.supervisors[index]? = some thread) (hlive : thread.live = true) :
    entry.countedThreads = 1 := by
  obtain ⟨-, front, hends, -⟩ := h.owns_of_live hfound hlive
  rw [hends.countedThreads]
  cases hphase : thread.phase <;> simp_all [SupervisorThread.live, SupervisorThread.counted]

/-- No thread outside the lock ends the assertion. -/
theorem At.interferes (h : At stages view manager) {after : GwChannelManager}
    (hstep : Interferes stoppable manager after) : At stages view after := by
  cases hstep with
  | requestStop allowed signal nonzero => exact ⟨h.slots, h.counter, h.view⟩
  | @thread slot index entry step =>
    cases step with
    | @returns thread result found phase =>
      have hlive : thread.live = true := by simp [SupervisorThread.live, phase]
      have hchanged := (h.slots slot).change_live found hlive
        (fun thread => { thread with phase := .returned }) rfl rfl
      have hcounted := (h.slots slot).counted_of_live found hlive
      exact h.keep (hchanged.1.congr rfl rfl rfl rfl rfl) (hchanged.2.trans hcounted.symm) rfl
    | @stores thread found phase =>
      have hlive : thread.live = true := by simp [SupervisorThread.live, phase]
      have hchanged := (h.slots slot).change_live found hlive
        (fun thread => { thread with phase := .stored }) rfl rfl
      have hcounted := (h.slots slot).counted_of_live found hlive
      exact h.keep (hchanged.1.congr rfl rfl rfl rfl rfl) (hchanged.2.trans hcounted.symm) rfl
    | @observes thread snapshot found phase publishes =>
      have hlive : thread.live = true := by simp [SupervisorThread.live, phase]
      have hchanged := (h.slots slot).change_live found hlive
        (fun thread => { thread with published := thread.published ++ [snapshot] })
        (by simp [SupervisorThread.created, phase]) rfl
      have hcounted := (h.slots slot).counted_of_live found hlive
      rw [if_pos (by simp [SupervisorThread.counted, phase])] at hchanged
      exact h.keep (hchanged.1.congr rfl rfl rfl rfl rfl) (hchanged.2.trans hcounted.symm) rfl
  | @finishes slot index thread found phase =>
    have hlive : thread.live = true := by simp [SupervisorThread.live, phase]
    have hchanged := (h.slots slot).change_live found hlive
      (fun thread => { thread with phase := .finished }) rfl rfl
    have hcounted := (h.slots slot).counted_of_live found hlive
    have hover : ((manager.entries slot).changeThread index
        fun thread => { thread with phase := .finished }).countedThreads = 0 := hchanged.2
    have htotal := countedThreads_setEntry manager slot
      ((manager.entries slot).changeThread index fun thread => { thread with phase := .finished })
    rw [hover, hcounted] at htotal
    have hactive : (manager.activeThreads + (2 ^ 64 - 1)) % 2 ^ 64 =
        (manager.setEntry slot ((manager.entries slot).changeThread index
          fun thread => { thread with phase := .finished })).countedThreads % 2 ^ 64 := by
      rw [h.counter]
      omega
    have hmoved := h.move hchanged.1 _ hactive
    rw [Function.update_eq_self] at hmoved
    have hplaced : ((manager.entries slot).changeThread index
        fun thread => { thread with phase := .finished }).placed = view.placed slot :=
      h.placed slot
    rw [hplaced, view.place_self] at hmoved
    exact hmoved

end Assertion

/-! ## Joins -/

/-- The slot's handle is a thread at this phase. -/
def HandleAt (slot : Fin gwMaxChannels) (phase : ThreadPhase) (manager : GwChannelManager) : Prop :=
  ∃ index thread, (manager.entries slot).thread = some index ∧
    (manager.entries slot).supervisors[index]? = some thread ∧ thread.phase = phase

section Join

variable {stoppable : Prop} {manager : GwChannelManager} {slot : Fin gwMaxChannels}

/-- The other threads can bring a handle from one phase to the next. -/
theorem HandleAt.supervising (h : HandleAt slot .supervising manager) :
    ∃ after, Interferes stoppable manager after ∧ HandleAt slot .returned after := by
  obtain ⟨index, thread, hthread, hfound, hphase⟩ := h
  refine ⟨_, .thread slot (.returns 0 hfound hphase), index, { thread with phase := .returned }, ?_⟩
  simp [GwChannelEntry.changeThread, hthread, List.getElem?_modify_eq, hfound]

theorem HandleAt.returned (h : HandleAt slot .returned manager) :
    ∃ after, Interferes stoppable manager after ∧ HandleAt slot .stored after := by
  obtain ⟨index, thread, hthread, hfound, hphase⟩ := h
  refine ⟨_, .thread slot (.stores hfound hphase), index, { thread with phase := .stored }, ?_⟩
  simp [GwChannelEntry.changeThread, hthread, List.getElem?_modify_eq, hfound]

theorem HandleAt.stored (h : HandleAt slot .stored manager) :
    ∃ after, Interferes stoppable manager after ∧ HandleAt slot .finished after := by
  obtain ⟨index, thread, hthread, hfound, hphase⟩ := h
  refine ⟨_, .finishes slot hfound hphase, index, { thread with phase := .finished }, ?_⟩
  simp [GwChannelEntry.changeThread, hthread, List.getElem?_modify_eq, hfound]

/-- A created thread can end. -/
theorem HandleAt.finishes {phase : ThreadPhase} (h : HandleAt slot phase manager)
    (hcreated : phase ∈ [ThreadPhase.supervising, .returned, .stored, .finished]) :
    ∃ later, Relation.ReflTransGen (Interferes stoppable) manager later ∧ HandleAt slot .finished later := by
  have hstored : ∀ {manager}, HandleAt slot .stored manager →
      ∃ later, Relation.ReflTransGen (Interferes stoppable) manager later ∧ HandleAt slot .finished later := by
    intro manager h
    obtain ⟨after, hstep, hafter⟩ := h.stored
    exact ⟨after, .single hstep, hafter⟩
  have hreturned : ∀ {manager}, HandleAt slot .returned manager →
      ∃ later, Relation.ReflTransGen (Interferes stoppable) manager later ∧ HandleAt slot .finished later := by
    intro manager h
    obtain ⟨after, hstep, hafter⟩ := h.returned
    obtain ⟨later, hlater, hfinished⟩ := hstored hafter
    exact ⟨later, .head hstep hlater, hfinished⟩
  cases phase with
  | finished => exact ⟨manager, .refl, h⟩
  | stored => exact hstored h
  | returned => exact hreturned h
  | supervising =>
    obtain ⟨after, hstep, hafter⟩ := h.supervising
    obtain ⟨later, hlater, hfinished⟩ := hreturned hafter
    exact ⟨later, .head hstep hlater, hfinished⟩
  | announced | creationFailed | abandoned => simp at hcreated

theorem HandleAt.join (h : HandleAt slot .finished manager) :
    ((manager.entries slot).join).isSome := by
  obtain ⟨index, thread, hthread, hfound, hphase⟩ := h
  simp [GwChannelEntry.join, hthread, hfound, hphase]

/-- A join of a slot's own thread can succeed. -/
theorem GwChannelEntry.Owns.joinable (h : (manager.entries slot).Owns) :
    ∃ later, Relation.ReflTransGen (Interferes stoppable) manager later ∧ ((later.entries slot).join).isSome := by
  obtain ⟨front, last, hends, hthread, hcreated, -⟩ := h
  have hat : HandleAt slot last.phase manager := by
    exact ⟨front.length, last, hthread, hends.last_found, rfl⟩
  obtain ⟨later, hlater, hfinished⟩ := hat.finishes (by
    cases hphase : last.phase <;> simp_all [SupervisorThread.created])
  exact ⟨later, hlater, hfinished.join⟩

/-- A join that succeeds leaves all threads of the slot over. -/
theorem GwChannelEntry.Owns.join {entry after : GwChannelEntry} (h : entry.Owns)
    (hjoin : entry.join = some after) :
    after.AllOver ∧ after.countedThreads = entry.countedThreads ∧
      after.occupied = entry.occupied ∧ after.runConfig = entry.runConfig ∧
      after.threadStarted = entry.threadStarted := by
  obtain ⟨front, last, hends, hthread, -, hjoins⟩ := h
  unfold GwChannelEntry.join at hjoin
  rw [hthread] at hjoin
  simp only [hends.last_found] at hjoin
  by_cases hphase : last.phase = .finished
  · rw [if_pos hphase, Option.some.injEq] at hjoin
    have hchanged := hends.change fun thread => { thread with joins := thread.joins + 1 }
    have hover : ({ last with joins := last.joins + 1 } : SupervisorThread).Over :=
      Or.inl ⟨hphase, by rw [hjoins]⟩
    rw [← hjoin]
    refine ⟨hchanged.allOver hover, ?_, rfl, rfl, rfl⟩
    rw [hchanged.countedThreads, hends.countedThreads]
    rfl
  · rw [if_neg hphase] at hjoin
    cases hjoin

end Join

/-! ## Rules for the steps of a section -/

/-- What the sections of the manager rely on: the supervisor threads, and the answers
of `pthread_create`. -/
def managerSetting (stoppable : Prop) (answers : Option Errno → Prop) :
    Setting GwChannelManager (Option Errno) :=
  ⟨Interferes stoppable, answers, ManagerSafe⟩

section Rules

variable {stoppable : Prop} {answers : Option Errno → Prop} (hnone : answers none)
  {stages : Fin gwMaxChannels → SlotStage} {view : ManagerView} {manager : GwChannelManager}
  {slot : Fin gwMaxChannels}

theorem at_stable (stoppable : Prop) (answers : Option Errno → Prop) (stages : Fin gwMaxChannels → SlotStage)
    (view : ManagerView) : (managerSetting stoppable answers).Stable (At stages view) :=
  fun _ _ h hstep => h.interferes hstep

include hnone in
theorem wp_read_at {α : Type} {f : GwChannelManager → α} {post : α → GwChannelManager → Prop}
    (h : At stages view manager) (hpost : ∀ after, At stages view after → post (f manager) after) :
    (Section.read f : Lifecycle α).wp (managerSetting stoppable answers) post manager :=
  Section.wp_read (At stages view) ⟨none, hnone⟩ h (at_stable stoppable answers stages view)
    (fun _ h => h.safe) hpost

include hnone in
theorem wp_write_at {f : GwChannelManager → GwChannelManager}
    {post : Unit → GwChannelManager → Prop} {stages' : Fin gwMaxChannels → SlotStage}
    {view' : ManagerView} (h : At stages' view' (f manager))
    (hpost : ∀ after, At stages' view' after → post () after) :
    (Section.write f : Lifecycle Unit).wp (managerSetting stoppable answers) post manager :=
  Section.wp_write (At stages' view') ⟨none, hnone⟩ h (at_stable stoppable answers stages' view')
    (fun _ h => h.safe) hpost

include hnone in
/-- A write to a field that no assertion is about. -/
theorem wp_write_keep {f : GwChannelManager → GwChannelManager}
    {post : Unit → GwChannelManager → Prop} (h : At stages view manager)
    (hsame : ∀ manager, (f manager).entries = manager.entries ∧
      (f manager).activeThreads = manager.activeThreads ∧ (f manager).view = manager.view)
    (hpost : ∀ after, At stages view after → post () after) :
    (Section.write f : Lifecycle Unit).wp (managerSetting stoppable answers) post manager := by
  obtain ⟨hentries, hactive, hview⟩ := hsame manager
  refine wp_write_at hnone ⟨?_, ?_, hview.trans h.view⟩ hpost
  · rw [hentries]
    exact h.slots
  · rw [GwChannelManager.countedThreads, hentries, hactive]
    exact h.counter

include hnone in
/-- A write to a field of a slot that no assertion is about. -/
theorem wp_updateEntry_keep {f : GwChannelEntry → GwChannelEntry}
    {post : Unit → GwChannelManager → Prop} (h : At stages view manager)
    (hsame : ∀ entry, (f entry).occupied = entry.occupied ∧ (f entry).thread = entry.thread ∧
      (f entry).threadStarted = entry.threadStarted ∧
      (f entry).supervisors = entry.supervisors ∧ (f entry).configuredAt = entry.configuredAt ∧
      (f entry).runConfig = entry.runConfig)
    (hpost : ∀ after, At stages view after → post () after) :
    (updateEntry slot f).wp (managerSetting stoppable answers) post manager := by
  obtain ⟨hoccupied, hthread, hstarted, hsupervisors, hconfigured, hrun⟩ :=
    hsame (manager.entries slot)
  refine wp_write_at hnone (h.keep ?_ ?_ ?_) hpost
  · exact (h.slots slot).congr hoccupied hthread hstarted hsupervisors hconfigured
  · rw [GwChannelEntry.countedThreads, hsupervisors]
    rfl
  · rw [GwChannelEntry.placed, GwChannelEntry.placed, hoccupied, hrun]

include hnone in
/-- `thread_started` of a slot, from its stage. -/
theorem wp_readStarted {post : Bool → GwChannelManager → Prop} (h : At stages view manager)
    (hrest : stages slot = .free ∨ stages slot = .held)
    (hpost : ∀ after, At stages view after → post (decide (stages slot = .held)) after) :
    (readEntry slot (·.threadStarted)).wp (managerSetting stoppable answers) post manager := by
  refine wp_read_at hnone h fun after hafter => ?_
  have hstarted : (manager.entries slot).threadStarted = decide (stages slot = .held) := by
    have hslot := h.slots slot
    rcases hrest with hstage | hstage
    · rw [hstage] at hslot ⊢
      exact hslot.1
    · rw [hstage] at hslot ⊢
      exact hslot.1
  simp only [hstarted]
  exact hpost after hafter

/-! ### The steps of `start_entry` and `stop_entry` -/

include hnone in
theorem wp_announceThread {post : Unit → GwChannelManager → Prop} (h : At stages view manager)
    (hfree : stages slot = .free) (hplaced : (view.placed slot).isSome)
    (hpost : ∀ after, At (Function.update stages slot .announced) view after → post () after) :
    (announceThread slot).wp (managerSetting stoppable answers) post manager := by
  have hslot := h.slots slot
  rw [hfree] at hslot
  have hends : (manager.entries slot).announced.EndsWith (manager.entries slot).supervisors
      ⟨.announced, 0, []⟩ := ⟨hslot.2.ended, rfl, hslot.2.configured⟩
  have hok : SlotOk .announced (manager.entries slot).announced :=
    ⟨hslot.1, (h.occupied slot).trans hplaced, _, hends⟩
  have htotal := countedThreads_setEntry manager slot (manager.entries slot).announced
  rw [hends.countedThreads, hslot.2.countedThreads,
    if_pos (show SupervisorThread.counted ⟨.announced, 0, []⟩ = true from rfl), Nat.add_zero] at htotal
  have hmoved := h.move hok ((manager.activeThreads + 1) % 2 ^ 64) (by
    rw [htotal, h.counter, Nat.mod_add_mod])
  have hview : view.place slot (manager.entries slot).announced.placed = view := by
    rw [show (manager.entries slot).announced.placed = view.placed slot from h.placed slot,
      view.place_self]
  rw [hview] at hmoved
  exact wp_write_at hnone hmoved hpost

include hnone in
theorem wp_createThread {post : Option Errno → GwChannelManager → Prop}
    (h : At stages view manager) (hannounced : stages slot = .announced)
    (hcreated : ∀ after, At (Function.update stages slot .created) view after → post none after)
    (hfailed : ∀ errno after, answers (some errno) →
      At (Function.update stages slot .failed) view after → post (some errno) after) :
    (createThread slot).wp (managerSetting stoppable answers) post manager := by
  have hslot := h.slots slot
  rw [hannounced] at hslot
  obtain ⟨hstarted, hoccupied, front, hends⟩ := hslot
  have hlength := hends.length
  refine Section.wp_step (fun answer after => answers answer ∧
      At (Function.update stages slot (if answer = none then .created else .failed)) view after)
    ⟨manager, .refl, none, hnone, rfl⟩ ?_ ?_ (fun _ _ h => h.2.safe) ?_
  · intro answer result after hanswer heq
    rw [Option.some.injEq, Prod.mk.injEq] at heq
    obtain ⟨rfl, rfl⟩ := heq
    refine ⟨hanswer, h.advance ?_ ?_ ?_⟩
    · cases answer with
      | none =>
        refine ⟨hstarted, hoccupied, front, ⟨.supervising, 0, []⟩, ?_, ?_, rfl, rfl⟩
        · have hchanged := hends.change fun thread => { thread with phase := .supervising }
          refine hchanged.congr ?_ rfl
          simp only [GwChannelEntry.afterCreate, hlength]
        · simp only [GwChannelEntry.afterCreate, hlength]
      | some errno =>
        refine ⟨hstarted, hoccupied, front, ?_⟩
        have hchanged := hends.change fun thread => { thread with phase := .creationFailed }
        refine hchanged.congr ?_ rfl
        simp only [GwChannelEntry.afterCreate, hlength]
    · cases answer with
      | none =>
        have hchanged := hends.change fun thread => { thread with phase := .supervising }
        simp only [GwChannelEntry.afterCreate, hlength]
        exact hchanged.countedThreads.trans hends.countedThreads.symm
      | some errno =>
        have hchanged := hends.change fun thread => { thread with phase := .creationFailed }
        simp only [GwChannelEntry.afterCreate, hlength]
        exact hchanged.countedThreads.trans hends.countedThreads.symm
    · cases answer <;> rfl
  · rintro answer before after ⟨hanswer, hat⟩ hstep
    exact ⟨hanswer, hat.interferes hstep⟩
  · rintro answer after ⟨hanswer, hat⟩
    cases answer with
    | none => exact hcreated after hat
    | some errno => exact hfailed errno after hanswer hat

include hnone in
theorem wp_retractThread {post : Unit → GwChannelManager → Prop} (h : At stages view manager)
    (hfailed : stages slot = .failed)
    (hpost : ∀ after, At (Function.update stages slot .free) view after → post () after) :
    (retractThread slot).wp (managerSetting stoppable answers) post manager := by
  have hslot := h.slots slot
  rw [hfailed] at hslot
  obtain ⟨hstarted, -, front, hends⟩ := hslot
  have hchanged := hends.change fun thread => { thread with phase := .abandoned }
  rw [← hends.length] at hchanged
  have hok : SlotOk .free (manager.entries slot).retracted :=
    ⟨hstarted, hchanged.allOver (Or.inr ⟨rfl, rfl⟩)⟩
  have htotal := countedThreads_setEntry manager slot (manager.entries slot).retracted
  rw [hends.countedThreads, hok.2.countedThreads,
    if_pos (show SupervisorThread.counted ⟨.creationFailed, 0, []⟩ = true from rfl), Nat.add_zero]
    at htotal
  have hactive : (manager.activeThreads + (2 ^ 64 - 1)) % 2 ^ 64 =
      (manager.setEntry slot (manager.entries slot).retracted).countedThreads % 2 ^ 64 := by
    rw [h.counter]
    omega
  have hmoved := h.move hok _ hactive
  have hview : view.place slot (manager.entries slot).retracted.placed = view := by
    rw [show (manager.entries slot).retracted.placed = view.placed slot from h.placed slot,
      view.place_self]
  rw [hview] at hmoved
  exact wp_write_at hnone hmoved hpost

include hnone in
theorem wp_joinThread {post : Unit → GwChannelManager → Prop} (h : At stages view manager)
    (hheld : stages slot = .held)
    (hpost : ∀ after, At (Function.update stages slot .joined) view after → post () after) :
    (joinThread slot).wp (managerSetting stoppable answers) post manager := by
  have hslot := h.slots slot
  rw [hheld] at hslot
  obtain ⟨hstarted, hoccupied, howns⟩ := hslot
  obtain ⟨later, hlater, hjoinable⟩ := howns.joinable
  refine Section.wp_step (fun _ => At (Function.update stages slot .joined) view)
    ⟨later, hlater, none, hnone, by simpa using hjoinable⟩ ?_
    (fun _ => at_stable stoppable answers _ view) (fun _ _ h => h.safe) fun _ => hpost
  intro answer result after _ heq
  rw [Option.map_eq_some_iff] at heq
  obtain ⟨entry, hjoin, heq⟩ := heq
  rw [Prod.mk.injEq] at heq
  rw [← heq.2]
  obtain ⟨hover, hcounted, hocc, hrun, hthreadStarted⟩ := howns.join hjoin
  refine h.advance ⟨hthreadStarted.trans hstarted, hocc.trans hoccupied, hover⟩ hcounted ?_
  rw [GwChannelEntry.placed, GwChannelEntry.placed, hocc, hrun]

include hnone in
/-- `thread_started` is set after the creation, and cleared after the join. -/
theorem wp_setStarted {post : Unit → GwChannelManager → Prop} (h : At stages view manager)
    (hcreated : stages slot = .created)
    (hpost : ∀ after, At (Function.update stages slot .held) view after → post () after) :
    (updateEntry slot fun entry => { entry with threadStarted := true }).wp
      (managerSetting stoppable answers) post manager := by
  have hslot := h.slots slot
  rw [hcreated] at hslot
  have hok : SlotOk .held { manager.entries slot with threadStarted := true } :=
    ⟨rfl, hslot.2.1, hslot.2.2.congr rfl rfl rfl⟩
  exact wp_write_at hnone (h.advance hok rfl rfl) hpost

include hnone in
theorem wp_clearStarted {post : Unit → GwChannelManager → Prop} (h : At stages view manager)
    (hjoined : stages slot = .joined)
    (hpost : ∀ after, At (Function.update stages slot .free) view after → post () after) :
    (updateEntry slot fun entry => { entry with threadStarted := false }).wp
      (managerSetting stoppable answers) post manager := by
  have hslot := h.slots slot
  rw [hjoined] at hslot
  have hok : SlotOk .free { manager.entries slot with threadStarted := false } :=
    ⟨rfl, hslot.2.2.congr rfl rfl⟩
  exact wp_write_at hnone (h.advance hok rfl rfl) hpost

end Rules

end LearnApue.Gateway
