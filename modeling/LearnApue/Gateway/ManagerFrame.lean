import LearnApue.Gateway.ManagerSections

set_option autoImplicit false

/-!
# Gateway: what the acts of the channel manager leave alone

`OwnSteps` is what a slot's own threads do to it, and `OnSlot` what an act of the
lock's holder does to one slot.  `Framed` adds to the assertion of the sections what
is known of each slot; the rules say that an act on one slot ends none of it for the
others.
-/

namespace LearnApue.Gateway

open LearnApue.Foundation

/-! ## A slot's own threads -/

/-- A step of a slot's own threads. -/
inductive OwnStep (entry : GwChannelEntry) : GwChannelEntry → Prop
  | thread {index : Nat} {after : GwChannelEntry} (step : ThreadStep entry index after) :
      OwnStep entry after
  | finishes {index : Nat} {thread : SupervisorThread}
      (found : entry.supervisors[index]? = some thread) (phase : thread.phase = .stored) :
      OwnStep entry (entry.changeThread index fun thread => { thread with phase := .finished })

/-- Any number of them. -/
def OwnSteps : GwChannelEntry → GwChannelEntry → Prop := Relation.ReflTransGen OwnStep

/-- Interference changes a slot by its own threads only. -/
theorem interferes_entry {stoppable : Prop} {manager after : GwChannelManager}
    (h : Interferes stoppable manager after) (slot : Fin gwMaxChannels) :
    after.entries slot = manager.entries slot ∨
      OwnStep (manager.entries slot) (after.entries slot) := by
  cases h with
  | requestStop allowed signal nonzero => exact Or.inl rfl
  | @thread other index entry step =>
    by_cases hsame : slot = other
    · subst hsame
      rw [setEntry_self]
      exact Or.inr (.thread step)
    · exact Or.inl (setEntry_of_ne manager entry hsame)
  | @finishes other index thread found phase =>
    by_cases hsame : slot = other
    · subst hsame
      refine Or.inr ?_
      simp only [setEntry_self]
      exact .finishes found phase
    · refine Or.inl ?_
      simp only [setEntry_of_ne _ _ hsame]

/-- A thread was created since the slot's configuration was installed. -/
def GwChannelEntry.Supervised (entry : GwChannelEntry) : Prop :=
  ∃ index thread, entry.configuredAt ≤ index ∧ entry.supervisors[index]? = some thread ∧
    thread.created = true

/-- A change of one thread leaves what the other threads did. -/
theorem supervised_changeThread {entry : GwChannelEntry} {index : Nat}
    {change : SupervisorThread → SupervisorThread}
    (h : ∀ thread, entry.supervisors[index]? = some thread →
      (change thread).created = thread.created) :
    (entry.changeThread index change).Supervised ↔ entry.Supervised := by
  unfold GwChannelEntry.Supervised GwChannelEntry.changeThread
  refine exists_congr fun at_ => ?_
  by_cases hsame : index = at_
  · subst hsame
    cases hfound : entry.supervisors[index]? with
    | none => simp [List.getElem?_modify_eq, hfound]
    | some thread => simp [List.getElem?_modify_eq, hfound, h thread hfound]
  · simp [List.getElem?_modify_ne _ _ hsame]

/-- What the threads of a slot never change in it. -/
structure SlotKept (before after : GwChannelEntry) : Prop where
  occupied : after.occupied = before.occupied
  thread : after.thread = before.thread
  threadStarted : after.threadStarted = before.threadStarted
  stopSignal : after.stopSignal = before.stopSignal
  generation : after.generation = before.generation
  options : after.options = before.options
  runConfig : after.runConfig = before.runConfig
  configuredAt : after.configuredAt = before.configuredAt
  joins : after.supervisors.map (·.joins) = before.supervisors.map (·.joins)
  supervised : after.Supervised ↔ before.Supervised

theorem SlotKept.refl (entry : GwChannelEntry) : SlotKept entry entry :=
  ⟨rfl, rfl, rfl, rfl, rfl, rfl, rfl, rfl, rfl, Iff.rfl⟩

theorem SlotKept.trans {first second third : GwChannelEntry} (h : SlotKept first second)
    (h' : SlotKept second third) : SlotKept first third :=
  ⟨h'.occupied.trans h.occupied, h'.thread.trans h.thread,
    h'.threadStarted.trans h.threadStarted, h'.stopSignal.trans h.stopSignal,
    h'.generation.trans h.generation, h'.options.trans h.options, h'.runConfig.trans h.runConfig,
    h'.configuredAt.trans h.configuredAt, h'.joins.trans h.joins,
    h'.supervised.trans h.supervised⟩

theorem map_joins_modify (threads : List SupervisorThread) (index : Nat)
    {change : SupervisorThread → SupervisorThread} (h : ∀ thread, (change thread).joins = thread.joins) :
    (threads.modify index change).map (·.joins) = threads.map (·.joins) := by
  induction threads generalizing index with
  | nil => simp
  | cons head rest ih =>
    cases index with
    | zero => simp [h head]
    | succ index => simp [ih index]

/-- A change of a thread that keeps its joins and whether it was created. -/
theorem slotKept_changeThread {entry : GwChannelEntry} {index : Nat}
    {change : SupervisorThread → SupervisorThread} (hjoins : ∀ thread, (change thread).joins = thread.joins)
    (h : ∀ thread, entry.supervisors[index]? = some thread →
      (change thread).created = thread.created) :
    SlotKept entry (entry.changeThread index change) :=
  ⟨rfl, rfl, rfl, rfl, rfl, rfl, rfl, rfl, map_joins_modify _ _ hjoins,
    supervised_changeThread h⟩

/-- A step of a supervisor keeps what was joined and published before it. -/
theorem OwnStep.kept {before after : GwChannelEntry} (h : OwnStep before after) :
    SlotKept before after := by
  cases h with
  | @finishes index thread found phase =>
    refine slotKept_changeThread (fun _ => rfl) ?_
    intro other hother
    rw [found, Option.some.injEq] at hother
    simp [← hother, SupervisorThread.created, phase]
  | @thread index after step =>
    cases step with
    | @returns thread result found phase =>
      have hkept := @slotKept_changeThread before index
        (fun thread => { thread with phase := .returned }) (fun _ => rfl) (by
          intro other hother
          rw [found, Option.some.injEq] at hother
          simp [← hother, SupervisorThread.created, phase])
      exact ⟨rfl, rfl, rfl, rfl, rfl, rfl, rfl, rfl, hkept.joins, hkept.supervised⟩
    | @stores thread found phase =>
      have hkept := @slotKept_changeThread before index
        (fun thread => { thread with phase := .stored }) (fun _ => rfl) (by
          intro other hother
          rw [found, Option.some.injEq] at hother
          simp [← hother, SupervisorThread.created, phase])
      exact ⟨rfl, rfl, rfl, rfl, rfl, rfl, rfl, rfl, hkept.joins, hkept.supervised⟩
    | @observes thread snapshot found phase publishes =>
      have hkept := @slotKept_changeThread before index
        (fun thread => { thread with published := thread.published ++ [snapshot] })
        (fun _ => rfl) fun _ _ => rfl
      exact ⟨rfl, rfl, rfl, rfl, rfl, rfl, rfl, rfl, hkept.joins, hkept.supervised⟩

/-- So does any number of them. -/
theorem OwnSteps.kept {before after : GwChannelEntry} (h : OwnSteps before after) :
    SlotKept before after := by
  induction h with
  | refl => exact SlotKept.refl before
  | tail _ hstep ih => exact ih.trans hstep.kept

/-- Managers that place the same channels find them in the same slots. -/
theorem findEntry_congr {manager after : GwChannelManager}
    (h : ∀ slot, (after.entries slot).occupied = (manager.entries slot).occupied ∧
      (after.entries slot).runConfig = (manager.entries slot).runConfig) (channelId : Bytes) :
    findEntry after channelId = findEntry manager channelId := by
  unfold findEntry
  congr 1
  funext slot
  simp only [GwChannelEntry.channel, (h slot).1, (h slot).2]

/-- No channel moves to another slot while the lock is held. -/
theorem interferes_findEntry {stoppable : Prop} {manager after : GwChannelManager}
    (h : Interferes stoppable manager after) (channelId : Bytes) :
    findEntry after channelId = findEntry manager channelId := by
  refine findEntry_congr (fun slot => ?_) channelId
  rcases interferes_entry h slot with hsame | hown
  · rw [hsame]
    exact ⟨rfl, rfl⟩
  · exact ⟨hown.kept.occupied, hown.kept.runConfig⟩

/-! ## Acts on one slot -/

/-- What `start_entry` and `stop_entry` do to a slot. -/
inductive RunAct (entry : GwChannelEntry) : GwChannelEntry → Prop
  | control (result stopSignal : Int) (threadRunning threadStarted : Bool) :
      RunAct entry
        { entry with
            result := result
            stopSignal := stopSignal
            threadRunning := threadRunning
            threadStarted := threadStarted }
  | announce : RunAct entry entry.announced
  | create (answer : Option Errno) : RunAct entry (entry.afterCreate answer)
  | retract : RunAct entry entry.retracted
  | join {after : GwChannelEntry} (joined : entry.join = some after) : RunAct entry after

/-- What no such act changes. -/
structure SameSetup (before after : GwChannelEntry) : Prop where
  occupied : after.occupied = before.occupied
  generation : after.generation = before.generation
  options : after.options = before.options
  runConfig : after.runConfig = before.runConfig
  configuredAt : after.configuredAt = before.configuredAt
  snapshot : after.snapshot = before.snapshot

/-- To run or to stop a slot is not to set it up. -/
theorem RunAct.setup {before after : GwChannelEntry} (h : RunAct before after) :
    SameSetup before after := by
  cases h with
  | control | announce | retract => exact ⟨rfl, rfl, rfl, rfl, rfl, rfl⟩
  | create answer => cases answer <;> exact ⟨rfl, rfl, rfl, rfl, rfl, rfl⟩
  | join joined =>
    unfold GwChannelEntry.join at joined
    split at joined
    · cases joined
      exact ⟨rfl, rfl, rfl, rfl, rfl, rfl⟩
    · split at joined
      · cases joined
        exact ⟨rfl, rfl, rfl, rfl, rfl, rfl⟩
      · split at joined
        · cases joined
          exact ⟨rfl, rfl, rfl, rfl, rfl, rfl⟩
        · cases joined

/-- An act that changes one slot, and what the manager counts. -/
structure OnSlot (R : GwChannelEntry → GwChannelEntry → Prop) (slot : Fin gwMaxChannels)
    (before after : GwChannelManager) : Prop where
  others : ∀ other, other ≠ slot → after.entries other = before.entries other
  here : after.entries slot = before.entries slot ∨ R (before.entries slot) (after.entries slot)
  started : after.started = before.started
  stopSignal : after.stopSignal = before.stopSignal
  callerOptions : after.callerOptions = before.callerOptions

section OnSlot

variable {R : GwChannelEntry → GwChannelEntry → Prop} {slot : Fin gwMaxChannels}

theorem onSlot_refl (manager : GwChannelManager) : OnSlot R slot manager manager :=
  ⟨fun _ _ => rfl, Or.inl rfl, rfl, rfl, rfl⟩

theorem onSlot_setEntry {manager : GwChannelManager} {entry : GwChannelEntry}
    (h : R (manager.entries slot) entry) (active : Nat) :
    OnSlot R slot manager { manager.setEntry slot entry with activeThreads := active } := by
  refine ⟨?_, Or.inr ?_, rfl, rfl, rfl⟩
  · intro other hother
    simp only [setEntry_of_ne _ _ hother]
  · simp only [setEntry_self]
    exact h

theorem acts_readEntry {α : Type} (f : GwChannelEntry → α) :
    (readEntry slot f).Acts (OnSlot R slot) := Section.acts_read onSlot_refl _

theorem acts_updateEntry {f : GwChannelEntry → GwChannelEntry} (h : ∀ entry, R entry (f entry)) :
    (updateEntry slot f).Acts (OnSlot R slot) :=
  Section.acts_write fun manager => onSlot_setEntry (h _) manager.activeThreads

theorem acts_runWhen {R : GwChannelManager → GwChannelManager → Prop} {condition : Bool}
    {body : Lifecycle Unit} (h : body.Acts R) : (runWhen condition body).Acts R := by
  cases condition with
  | true => exact h
  | false => exact trivial

/-- `start_entry`, `reap_entry` and `stop_entry` act on their slot only. -/
theorem startEntry_acts : (startEntry slot).Acts (OnSlot RunAct slot) := by
  refine Section.acts_bind (acts_updateEntry fun entry => .control ..) fun _ => ?_
  refine Section.acts_bind (acts_updateEntry fun entry => .control ..) fun _ => ?_
  refine Section.acts_bind (acts_updateEntry fun entry => .control ..) fun _ => ?_
  refine Section.acts_bind (Section.acts_write fun _ => onSlot_setEntry .announce _) fun _ => ?_
  refine Section.acts_bind ⟨?_, fun _ => trivial⟩ fun answer => ?_
  · intro manager answer result after heq
    rw [Option.some.injEq, Prod.mk.injEq] at heq
    rw [← heq.2]
    exact onSlot_setEntry (.create answer) manager.activeThreads
  · cases answer with
    | none => exact Section.acts_bind (acts_updateEntry fun entry => .control ..) fun _ => trivial
    | some errno =>
      refine Section.acts_bind (Section.acts_write fun _ => onSlot_setEntry .retract _) fun _ => ?_
      refine Section.acts_bind (acts_updateEntry fun entry => .control ..) fun _ => ?_
      exact Section.acts_bind (acts_readEntry _) fun _ => trivial

theorem reapEntry_acts : (reapEntry slot).Acts (OnSlot RunAct slot) := by
  refine Section.acts_bind ⟨?_, fun _ => trivial⟩ fun _ => acts_updateEntry fun entry => .control ..
  intro manager answer result after heq
  rw [Option.map_eq_some_iff] at heq
  obtain ⟨entry, hjoin, heq⟩ := heq
  rw [Prod.mk.injEq] at heq
  rw [← heq.2]
  exact onSlot_setEntry (.join hjoin) manager.activeThreads

theorem stopEntry_acts : (stopEntry slot).Acts (OnSlot RunAct slot) := by
  refine Section.acts_bind (acts_readEntry _) fun started => acts_runWhen ?_
  exact Section.acts_bind (acts_updateEntry fun entry => .control ..) fun _ => reapEntry_acts

end OnSlot

/-! ## Rules with what is known of each slot -/

/-- An assertion about a slot that no step of its own threads ends. -/
def Lasting (P : GwChannelEntry → Prop) : Prop := ∀ before after, P before → OwnStep before after → P after

/-- The assertion of the sections, and what is known of each slot. -/
structure Framed (stages : Fin gwMaxChannels → SlotStage) (view : ManagerView)
    (P : Fin gwMaxChannels → GwChannelEntry → Prop) (manager : GwChannelManager) : Prop where
  assertion : At stages view manager
  known : ∀ slot, P slot (manager.entries slot)

section Rules

variable {stoppable : Prop} {answers : Option Errno → Prop} (hnone : answers none)
  {stages : Fin gwMaxChannels → SlotStage} {view : ManagerView}
  {P : Fin gwMaxChannels → GwChannelEntry → Prop} {manager : GwChannelManager}
  {slot : Fin gwMaxChannels}

theorem known_stable (stoppable : Prop) (answers : Option Errno → Prop)
    (hlasting : ∀ slot, Lasting (P slot)) :
    (managerSetting stoppable answers).Stable fun manager => ∀ slot, P slot (manager.entries slot) := by
  intro before after h hstep slot
  rcases interferes_entry hstep slot with hsame | hown
  · rw [hsame]
    exact h slot
  · exact hlasting slot _ _ (h slot) hown

/-- The frame of a slot outlasts what the supervisors of all slots do meanwhile. -/
theorem framed_stable (stoppable : Prop) (answers : Option Errno → Prop)
    (hlasting : ∀ slot, Lasting (P slot)) :
    (managerSetting stoppable answers).Stable (Framed stages view P) := by
  intro before after h hstep
  exact ⟨h.assertion.interferes hstep, known_stable stoppable answers hlasting _ _ h.known hstep⟩

include hnone in
theorem wp_read_framed {α : Type} {f : GwChannelManager → α} {post : α → GwChannelManager → Prop}
    (hlasting : ∀ slot, Lasting (P slot)) (h : Framed stages view P manager)
    (hpost : ∀ after, Framed stages view P after → post (f manager) after) :
    (Section.read f : Lifecycle α).wp (managerSetting stoppable answers) post manager :=
  Section.wp_read (Framed stages view P) ⟨none, hnone⟩ h (framed_stable stoppable answers hlasting)
    (fun _ h => h.assertion.safe) hpost

include hnone in
theorem wp_write_framed {f : GwChannelManager → GwChannelManager}
    {post : Unit → GwChannelManager → Prop} (hlasting : ∀ slot, Lasting (P slot))
    (h : Framed stages view P (f manager))
    (hpost : ∀ after, Framed stages view P after → post () after) :
    (Section.write f : Lifecycle Unit).wp (managerSetting stoppable answers) post manager :=
  Section.wp_write (Framed stages view P) ⟨none, hnone⟩ h (framed_stable stoppable answers hlasting)
    (fun _ h => h.assertion.safe) hpost

/-- What an act on a slot does not change stays known. -/
theorem OnSlot.known {before after : GwChannelManager} (h : OnSlot RunAct slot before after)
    (hhere : ∀ before after, SameSetup before after → P slot before → P slot after)
    (hknown : ∀ slot, P slot (before.entries slot)) (other : Fin gwMaxChannels) :
    P other (after.entries other) := by
  by_cases hsame : other = slot
  · subst hsame
    rcases h.here with hkept | hact
    · rw [hkept]
      exact hknown other
    · exact hhere _ _ hact.setup (hknown other)
  · rw [h.others other hsame]
    exact hknown other

include hnone in
theorem wp_stopEntry_framed {post : Unit → GwChannelManager → Prop}
    (hlasting : ∀ slot, Lasting (P slot))
    (hhere : ∀ before after, SameSetup before after → P slot before → P slot after)
    (h : Framed stages view P manager) (hrest : stages slot = .free ∨ stages slot = .held)
    (hpost : ∀ after, Framed (Function.update stages slot .free) view P after → post () after) :
    (stopEntry slot).wp (managerSetting stoppable answers) post manager := by
  have hstop : (stopEntry slot).wp (managerSetting stoppable answers)
      (fun _ after => At (Function.update stages slot .free) view after) manager :=
    wp_stopEntry hnone h.assertion hrest fun _ h => h
  have hframed := stopEntry_acts.wp_and (fun _ _ hact => hact.known hhere)
    (known_stable stoppable answers hlasting) h.known hstop
  exact Section.wp_mono hframed fun _ after h => hpost after ⟨h.1, h.2⟩

include hnone in
theorem wp_startEntry_framed {post : Except GwError Unit → GwChannelManager → Prop}
    (hlasting : ∀ slot, Lasting (P slot))
    (hhere : ∀ before after, SameSetup before after → P slot before → P slot after)
    (h : Framed stages view P manager) (hfree : stages slot = .free)
    (hplaced : (view.placed slot).isSome)
    (hstarted : ∀ after, Framed (Function.update stages slot .held) view P after →
      post (.ok ()) after)
    (hfailed : ∀ errno error after, answers (some errno) → Framed stages view P after →
      post (.error error) after) :
    (startEntry slot).wp (managerSetting stoppable answers) post manager := by
  have hstart : (startEntry slot).wp (managerSetting stoppable answers)
      (fun status after =>
        (status = .ok () ∧ At (Function.update stages slot .held) view after) ∨
          ∃ errno error, status = .error error ∧ answers (some errno) ∧ At stages view after)
      manager :=
    wp_startEntry hnone h.assertion hfree hplaced (fun _ h => Or.inl ⟨rfl, h⟩)
      fun errno error _ hanswer h => Or.inr ⟨errno, error, rfl, hanswer, h⟩
  have hframed := startEntry_acts.wp_and (fun _ _ hact => hact.known hhere)
    (known_stable stoppable answers hlasting) h.known hstart
  refine Section.wp_mono hframed ?_
  rintro status after ⟨⟨rfl, hat⟩ | ⟨errno, error, rfl, hanswer, hat⟩, hknown⟩
  · exact hstarted after ⟨hat, hknown⟩
  · exact hfailed errno error after hanswer ⟨hat, hknown⟩

end Rules

end LearnApue.Gateway
