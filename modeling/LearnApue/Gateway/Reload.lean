import LearnApue.Gateway.ManagerFrame
import LearnApue.Gateway.Registry

set_option autoImplicit false

/-!
# Gateway: a reload under the lock (`gw_channel_manager_reload`)

The two loops of the section follow `reloadSlot` and `addEach` on the view of the
manager.  `SlotHistory` says what a reload leaves of a slot: a slot that is kept is
changed by its own threads only, and a slot that is restarted has the next generation.

The first loop goes over the slots: it removes a channel that the candidate has not, or
has disabled, keeps one that is configured as before, and restarts any other.  The second
loop goes over the candidate's channels and gives those that run nowhere a free slot.
Each has its invariant, `FirstLoop` and `SecondLoop`, which ties the manager to the pure
placement that has been computed so far; the first is handed over to the second
(`FirstLoop.second`).

The supervisor threads run all the while.  What an invariant knows of a slot has to last
through their steps (`Lasting`), and a start that fails is the answer of the environment,
not of the reload (`Explained`): the loops go on behind it, and the slot stays configured
without a thread.
-/

namespace LearnApue.Gateway

open LearnApue.Foundation

/-! ## The manager and its placement -/

section View

variable {stages : Fin gwMaxChannels → SlotStage} {view : ManagerView}
  {manager : GwChannelManager} {slot : Fin gwMaxChannels}

/-- A slot that runs something is occupied by that channel. -/
theorem At.channel (h : At stages view manager) {run : GwConfig} (hrun : view.placed slot = some run) :
    (manager.entries slot).occupied = true ∧ (manager.entries slot).channel = runChannel run := by
  have hplaced := (h.placed slot).trans hrun
  unfold GwChannelEntry.placed at hplaced
  split at hplaced
  · rename_i hoccupied
    exact ⟨hoccupied, by rw [GwChannelEntry.channel, Option.some.inj hplaced, runChannel]⟩
  · cases hplaced

/-- An occupied slot runs what the view says. -/
theorem At.run (h : At stages view manager) (hoccupied : (manager.entries slot).occupied = true) :
    view.placed slot = some (manager.entries slot).runConfig := by
  rw [← h.placed slot, GwChannelEntry.placed, if_pos hoccupied]

theorem At.occupied_iff (h : At stages view manager) :
    (manager.entries slot).occupied = true ↔ ∃ run, view.placed slot = some run := by
  rw [h.occupied slot, Option.isSome_iff_exists]

theorem At.unoccupied (h : At stages view manager) (hrun : view.placed slot = none) :
    (manager.entries slot).occupied = false := by
  rw [h.occupied slot, hrun]
  rfl

/-- The search for a channel by its id sees the placement and nothing else. -/
theorem At.findEntry (h : At stages view manager) (id : Bytes) :
    findEntry manager id = placedAt view.placed id := by
  unfold Gateway.findEntry placedAt
  congr 1
  funext slot
  cases hrun : view.placed slot with
  | none => simp [h.unoccupied hrun]
  | some run => simp [(h.channel hrun).1, (h.channel hrun).2]

/-- So does the search for a free slot. -/
theorem At.findFreeEntry (h : At stages view manager) :
    findFreeEntry manager = freeSlot view.placed := by
  unfold Gateway.findFreeEntry freeSlot
  congr 1
  funext slot
  rw [h.occupied slot]
  cases view.placed slot <;> rfl

end View

/-! ## What a reload leaves of a slot -/

/-- What becomes of a slot with this fate.  One that is kept has seen only steps of its own
threads; of a removed one nothing is promised; a restarted one was configured once. -/
def SlotHistory (before : GwChannelEntry) : SlotFate → GwChannelEntry → Prop
  | .empty, entry | .unchanged _, entry => OwnSteps before entry
  | .removed, _ => True
  | .restarted _, entry => entry.generation = (before.generation + 1) % 2 ^ 64

/-- The stage a slot with this fate reaches, while no start has failed. -/
def StageHistory (before : SlotStage) (started : Prop) : SlotFate → SlotStage → Prop
  | .empty, stage | .unchanged _, stage => stage = before
  | .removed, _ => True
  | .restarted _, stage => started → stage = .held

theorem generation_lasting (generation : Nat) :
    Lasting fun entry => entry.generation = generation :=
  fun _ _ h hstep => hstep.kept.generation.trans h

/-- The threads of a slot do not undo what the reload has made of it. -/
theorem slotHistory_lasting (before : GwChannelEntry) (fate : SlotFate) :
    Lasting (SlotHistory before fate) := by
  intro entry after h hstep
  cases fate with
  | empty | unchanged run => exact Relation.ReflTransGen.tail h hstep
  | removed => trivial
  | restarted run => exact generation_lasting _ _ _ h hstep

theorem StageHistory.mono {before stage : SlotStage} {started started' : Prop} {fate : SlotFate}
    (h : StageHistory before started fate stage) (himp : started' → started) :
    StageHistory before started' fate stage := by
  cases fate with
  | empty | unchanged run => exact h
  | removed => trivial
  | restarted run => exact fun hstarted => h (himp hstarted)

theorem Framed.mono {stages : Fin gwMaxChannels → SlotStage} {view : ManagerView}
    {P P' : Fin gwMaxChannels → GwChannelEntry → Prop} {manager : GwChannelManager}
    (h : Framed stages view P manager) (himp : ∀ slot entry, P slot entry → P' slot entry) :
    Framed stages view P' manager :=
  ⟨h.assertion, fun slot => himp slot _ (h.known slot)⟩

/-! ## The steps of a reload -/

section Steps

variable {stoppable : Prop} {answers : Option Errno → Prop} (hnone : answers none)
  {stages : Fin gwMaxChannels → SlotStage} {view : ManagerView}
  {P : Fin gwMaxChannels → GwChannelEntry → Prop} {manager : GwChannelManager}
  {slot : Fin gwMaxChannels}

/-- What is known of one slot may be replaced by what lasts as well. -/
theorem lasting_update (hlasting : ∀ slot, Lasting (P slot)) {Q : GwChannelEntry → Prop}
    (hQ : Lasting Q) (other : Fin gwMaxChannels) : Lasting (Function.update P slot Q other) := by
  by_cases hsame : other = slot
  · subst hsame
    rw [Function.update_self]
    exact hQ
  · rw [Function.update_of_ne hsame]
    exact hlasting other

/-- One slot gets a new entry, and with it what is known of it. -/
theorem Framed.replace {view' : ManagerView} (h : Framed stages view P manager)
    {entry : GwChannelEntry} (hat : At stages view' (manager.setEntry slot entry))
    {Q : GwChannelEntry → Prop} (hQ : Q entry) :
    Framed stages view' (Function.update P slot Q) (manager.setEntry slot entry) := by
  refine ⟨hat, fun other => ?_⟩
  by_cases hsame : other = slot
  · subst hsame
    rw [Function.update_self, setEntry_self]
    exact hQ
  · rw [Function.update_of_ne hsame, setEntry_of_ne _ _ hsame]
    exact h.known other

/-- A free slot gets another configuration, or none: no thread can notice. -/
theorem At.refill (h : At stages view manager) (hfree : stages slot = .free)
    {entry : GwChannelEntry} (hstarted : entry.threadStarted = (manager.entries slot).threadStarted)
    (hsupervisors : entry.supervisors = (manager.entries slot).supervisors)
    (hconfigured : entry.configuredAt ≤ entry.supervisors.length) :
    At stages (view.place slot entry.placed) (manager.setEntry slot entry) := by
  have hslot := h.slots slot
  rw [hfree] at hslot
  have hok : SlotOk .free entry := by
    refine ⟨hstarted.trans hslot.1, ?_, hconfigured⟩
    rw [hsupervisors]
    exact hslot.2.ended
  have hcounted : entry.countedThreads = (manager.entries slot).countedThreads := by
    rw [GwChannelEntry.countedThreads, hsupervisors]
    rfl
  have hmoved := h.replace hok hcounted
  rw [← hfree, Function.update_eq_self] at hmoved
  exact hmoved

include hnone in
/-- `configure_entry` on a free slot. -/
theorem wp_configureSlot {channel : GwChannelConfig} {config : GwConfig} {generation : Nat}
    {post : Unit → GwChannelManager → Prop} (hlasting : ∀ slot, Lasting (P slot))
    (h : Framed stages view P manager) (hfree : stages slot = .free)
    (hgeneration : ∀ entry, P slot entry → entry.generation = generation)
    (hpost : ∀ after, Framed stages (view.place slot (some (runConfigOf channel config)))
      (Function.update P slot fun entry =>
        entry.generation = ((if (view.placed slot).isSome then generation else 0) + 1) % 2 ^ 64)
      after → post () after) :
    (configureSlot slot channel config).wp (managerSetting stoppable answers) post manager := by
  refine wp_write_framed hnone (lasting_update hlasting (generation_lasting _)) ?_ hpost
  have hat : At stages (view.place slot (some (runConfigOf channel config)))
      (manager.setEntry slot
        (configureEntry manager.callerOptions channel config (manager.entries slot))) :=
    @At.refill _ _ _ _ h.assertion hfree
      (configureEntry manager.callerOptions channel config (manager.entries slot)) rfl rfl (le_refl _)
  refine h.replace hat ?_
  have hoccupied := h.assertion.occupied slot
  simp only [configureEntry, ← hoccupied, ← hgeneration _ (h.known slot)]

include hnone in
/-- A free slot becomes unoccupied. -/
theorem wp_releaseSlot {post : Unit → GwChannelManager → Prop}
    (hlasting : ∀ slot, Lasting (P slot)) (h : Framed stages view P manager)
    (hfree : stages slot = .free)
    (hpost : ∀ after, Framed stages (view.place slot none) (Function.update P slot fun _ => True)
      after → post () after) :
    (updateEntry slot fun entry => { entry with occupied := false }).wp
      (managerSetting stoppable answers) post manager := by
  have hlasting' := @lasting_update P slot hlasting (fun _ => True) (fun _ _ _ _ => trivial)
  refine wp_write_framed hnone hlasting' ?_ hpost
  have hslot := h.assertion.slots slot
  rw [hfree] at hslot
  have hat : At stages (view.place slot none)
      (manager.setEntry slot { manager.entries slot with occupied := false }) :=
    @At.refill _ _ _ _ h.assertion hfree { manager.entries slot with occupied := false } rfl rfl
      hslot.2.configured
  exact @Framed.replace _ _ _ _ _ _ h _ hat (fun _ => True) trivial

end Steps

/-! ## The first loop -/

/-- What a reload starts from. -/
structure ReloadStart where
  candidate : GwConfig
  /-- The settings that all workers share are those of the configuration before. -/
  globalsEqual : Bool
  view : ManagerView
  stages : Fin gwMaxChannels → SlotStage
  entries : Fin gwMaxChannels → GwChannelEntry

namespace ReloadStart

variable (start : ReloadStart)

/-- The fate of a slot. -/
def fate (slot : Fin gwMaxChannels) : SlotFate :=
  slotFate start.candidate start.globalsEqual (start.view.placed slot)

/-- The fate of a slot as far as the first loop has come: it has yet to touch the
pending ones. -/
def fateSoFar (pending : List (Fin gwMaxChannels)) (slot : Fin gwMaxChannels) : SlotFate :=
  if slot ∈ pending then .empty else start.fate slot

/-- The manager's view with another placement. -/
def viewAt (placed : Placement) : ManagerView := { start.view with placed := placed }

/-- What is known of the slots while the first loop runs. -/
def known (pending : List (Fin gwMaxChannels)) (slot : Fin gwMaxChannels) : GwChannelEntry → Prop :=
  SlotHistory (start.entries slot) (start.fateSoFar pending slot)

end ReloadStart

/-- A failure is the environment's answer to a start that was made. -/
def ReloadProgress.Explained (answers : Option Errno → Prop) (progress : ReloadProgress) : Prop :=
  progress.finalStatus = .ok () ∨
    (∃ errno, answers (some errno)) ∧ 0 < progress.changes.restarted + progress.changes.added

/-- The invariant of the first loop, with the slots that are pending, the placement and the
counts computed so far, and the progress that the code keeps. -/
structure FirstLoop (answers : Option Errno → Prop) (start : ReloadStart)
    (pending : List (Fin gwMaxChannels)) (state : Reloading) (progress : ReloadProgress)
    (stages : Fin gwMaxChannels → SlotStage) (manager : GwChannelManager) : Prop where
  /-- The manager has the computed placement, and its slots their histories. -/
  framed : Framed stages (start.viewAt state.placed) (start.known pending) manager
  rest : ∀ slot, stages slot = .free ∨ stages slot = .held
  /-- The code counts as the computation does. -/
  changes : progress.changes = state.changes
  staged : ∀ slot, StageHistory (start.stages slot) (progress.finalStatus = .ok ())
    (start.fateSoFar pending slot) (stages slot)
  /-- A pending slot still runs what it ran. -/
  untouched : ∀ slot ∈ pending, state.placed slot = start.view.placed slot
  /-- If the reload fails, a start has failed. -/
  status : progress.Explained answers

section First

variable {stoppable : Prop} {answers : Option Errno → Prop} (hnone : answers none)
  {start : ReloadStart} {pending : List (Fin gwMaxChannels)} {head : Fin gwMaxChannels}
  {state : Reloading} {progress progress' : ReloadProgress}
  {stages stages' : Fin gwMaxChannels → SlotStage} {manager manager' : GwChannelManager}

theorem known_lasting (start : ReloadStart) (pending : List (Fin gwMaxChannels))
    (slot : Fin gwMaxChannels) : Lasting (start.known pending slot) := slotHistory_lasting _ _

theorem fateSoFar_head : start.fateSoFar (head :: pending) head = .empty :=
  if_pos List.mem_cons_self

theorem fateSoFar_passed (hnotin : head ∉ pending) :
    start.fateSoFar pending head = start.fate head := if_neg hnotin

theorem fateSoFar_other {slot : Fin gwMaxChannels} (hslot : slot ≠ head) :
    start.fateSoFar pending slot = start.fateSoFar (head :: pending) slot := by
  unfold ReloadStart.fateSoFar
  simp only [List.mem_cons, hslot, false_or]

/-- A slot is passed.  The three ways to do so (`FirstLoop.skip`, `FirstLoop.remove` and
`FirstLoop.restart`) differ in what they know of the slot and in its stage; here are the
other slots, which notice nothing. -/
theorem FirstLoop.pass (h : FirstLoop answers start (head :: pending) state progress stages manager)
    (hnotin : head ∉ pending) {Q : GwChannelEntry → Prop}
    (hframed : Framed stages' (start.viewAt (Function.update state.placed head (start.fate head).run))
      (Function.update (start.known (head :: pending)) head Q) manager')
    (hQ : ∀ entry, Q entry → SlotHistory (start.entries head) (start.fate head) entry)
    (hothers : ∀ other, other ≠ head → stages' other = stages other)
    (hrest : stages' head = .free ∨ stages' head = .held)
    (hstaged : StageHistory (start.stages head) (progress'.finalStatus = .ok ()) (start.fate head)
      (stages' head))
    (hchanges : progress'.changes = (start.fate head).count progress.changes)
    (hearlier : progress'.finalStatus = .ok () → progress.finalStatus = .ok ())
    (hstatus : progress'.Explained answers) :
    FirstLoop answers start pending
      (reloadSlot start.candidate start.globalsEqual state head) progress' stages' manager' := by
  have hplaced : state.placed head = start.view.placed head := h.untouched head List.mem_cons_self
  have hfate : slotFate start.candidate start.globalsEqual (state.placed head) = start.fate head := by
    rw [hplaced, ReloadStart.fate]
  have hreload : reloadSlot start.candidate start.globalsEqual state head =
      ⟨Function.update state.placed head (start.fate head).run,
        (start.fate head).count state.changes⟩ := by
    rw [← hfate]
    rfl
  rw [hreload]
  refine ⟨hframed.mono ?_, ?_, ?_, ?_, ?_, hstatus⟩
  · intro slot entry hknown
    by_cases hsame : slot = head
    · subst hsame
      rw [Function.update_self] at hknown
      rw [ReloadStart.known, fateSoFar_passed hnotin]
      exact hQ entry hknown
    · rw [Function.update_of_ne hsame] at hknown
      rw [ReloadStart.known, fateSoFar_other hsame]
      exact hknown
  · intro slot
    by_cases hsame : slot = head
    · rw [hsame]
      exact hrest
    · rw [hothers slot hsame]
      exact h.rest slot
  · rw [hchanges, h.changes]
  · intro slot
    by_cases hsame : slot = head
    · rw [hsame, fateSoFar_passed hnotin]
      exact hstaged
    · rw [hothers slot hsame, fateSoFar_other hsame]
      exact (h.staged slot).mono hearlier
  · intro slot hslot
    have hne : slot ≠ head := fun heq => hnotin (heq ▸ hslot)
    exact (Function.update_of_ne hne ..).trans (h.untouched slot (List.mem_cons_of_mem _ hslot))

/-- A slot is passed untouched. -/
theorem FirstLoop.skip (h : FirstLoop answers start (head :: pending) state progress stages manager)
    (hnotin : head ∉ pending)
    (hkept : start.fate head = .empty ∨ ∃ run, start.fate head = .unchanged run)
    (hrun : (start.fate head).run = state.placed head)
    (hchanges : progress'.changes = (start.fate head).count progress.changes)
    (hstatus : progress'.finalStatus = progress.finalStatus) :
    FirstLoop answers start pending
      (reloadSlot start.candidate start.globalsEqual state head) progress' stages manager := by
  have hQ : ∀ entry, start.known (head :: pending) head entry →
      SlotHistory (start.entries head) (start.fate head) entry := by
    intro entry hknown
    rw [ReloadStart.known, fateSoFar_head] at hknown
    rcases hkept with hempty | ⟨run, hunchanged⟩
    · rw [hempty]
      exact hknown
    · rw [hunchanged]
      exact hknown
  have hstaged : StageHistory (start.stages head) (progress'.finalStatus = .ok ())
      (start.fate head) (stages head) := by
    have hsame := h.staged head
    rw [fateSoFar_head] at hsame
    rcases hkept with hempty | ⟨run, hunchanged⟩
    · rw [hempty]
      exact hsame
    · rw [hunchanged]
      exact hsame
  refine @FirstLoop.pass _ _ _ _ _ _ progress' _ stages _ manager h hnotin
    (start.known (head :: pending) head) ?_ hQ (fun _ _ => rfl) (h.rest head) hstaged hchanges
    (fun hok => hstatus ▸ hok) ?_
  · rw [hrun, Function.update_eq_self, Function.update_eq_self]
    exact h.framed
  · have hstarts : ((start.fate head).count progress.changes).restarted = progress.changes.restarted ∧
        ((start.fate head).count progress.changes).added = progress.changes.added := by
      rcases hkept with hempty | ⟨run, hunchanged⟩
      · rw [hempty]
        exact ⟨rfl, rfl⟩
      · rw [hunchanged]
        exact ⟨rfl, rfl⟩
    rw [ReloadProgress.Explained, hstatus, hchanges, hstarts.1, hstarts.2]
    exact h.status

/-- A slot is passed by the removal of its channel.  Nothing is known of its entry from
then on: the second loop may give it to another channel. -/
theorem FirstLoop.remove
    (h : FirstLoop answers start (head :: pending) state progress stages manager)
    (hnotin : head ∉ pending) (hremoved : start.fate head = .removed)
    (hframed : Framed (Function.update stages head .free)
      (start.viewAt (Function.update state.placed head none))
      (Function.update (start.known (head :: pending)) head fun _ => True) manager') :
    FirstLoop answers start pending (reloadSlot start.candidate start.globalsEqual state head)
      { progress with
          changes := { progress.changes with removed := progress.changes.removed + 1 } }
      (Function.update stages head .free) manager' := by
  refine @FirstLoop.pass _ _ _ _ _ _ _ _ (Function.update stages head .free) _ manager' h hnotin
    (fun _ => True) ?_ ?_ (fun other hother => Function.update_of_ne hother ..)
    (Or.inl (Function.update_self ..)) ?_ ?_ (fun hok => hok) h.status
  · rw [hremoved]
    exact hframed
  · rw [hremoved]
    exact fun _ _ => trivial
  · rw [hremoved]
    trivial
  · rw [hremoved]
    rfl

/-- How a start ended, and at which stage it left its slot. -/
inductive StartEnded (answers : Option Errno → Prop) : Except GwError Unit → SlotStage → Prop
  | started : StartEnded answers (.ok ()) .held
  | failed {errno : Errno} (error : GwError) (answered : answers (some errno)) :
      StartEnded answers (.error error) .free

/-- A slot is passed by a restart, which counts as one also when the start fails. -/
theorem FirstLoop.restart
    (h : FirstLoop answers start (head :: pending) state progress stages manager)
    (hnotin : head ∉ pending) {run : GwConfig} (hrestarted : start.fate head = .restarted run)
    {status : Except GwError Unit} {stage : SlotStage} (hended : StartEnded answers status stage)
    (hframed : Framed (Function.update stages head stage)
      (start.viewAt (Function.update state.placed head (some run)))
      (Function.update (start.known (head :: pending)) head fun entry =>
        entry.generation = ((start.entries head).generation + 1) % 2 ^ 64) manager') :
    FirstLoop answers start pending (reloadSlot start.candidate start.globalsEqual state head)
      (ReloadProgress.settle
        { progress with
            changes := { progress.changes with restarted := progress.changes.restarted + 1 } }
        status)
      (Function.update stages head stage) manager' := by
  refine @FirstLoop.pass _ _ _ _ _ _ _ _ (Function.update stages head stage) _ manager' h hnotin
    (fun entry => entry.generation = ((start.entries head).generation + 1) % 2 ^ 64) ?_ ?_
    (fun other hother => Function.update_of_ne hother ..) ?_ ?_ ?_ ?_ ?_
  · rw [hrestarted]
    exact hframed
  · rw [hrestarted]
    exact fun _ h => h
  · rw [Function.update_self]
    cases hended with
    | started => exact Or.inr rfl
    | failed error answered => exact Or.inl rfl
  · rw [hrestarted, Function.update_self]
    cases hended with
    | started => exact fun _ => rfl
    | failed error answered => exact fun hok => by cases hok
  · rw [hrestarted]
    cases hended <;> rfl
  · cases hended with
    | started => exact fun hok => hok
    | failed error answered => exact fun hok => by cases hok
  · cases hended with
    | started => exact h.status.imp_right fun hfailed => ⟨hfailed.1, Nat.add_pos_left (Nat.succ_pos _) _⟩
    | failed error answered => exact Or.inr ⟨⟨_, answered⟩, Nat.add_pos_left (Nat.succ_pos _) _⟩

theorem sameSetup_generation {generation : Nat} (before after : GwChannelEntry)
    (h : SameSetup before after) (hbefore : before.generation = generation) :
    after.generation = generation := h.generation.trans hbefore

include hnone in
/-- A slot whose channel is gone. -/
theorem wp_removeSlot {post : Unit → GwChannelManager → Prop}
    (h : FirstLoop answers start (head :: pending) state progress stages manager)
    (hpost : ∀ after, Framed (Function.update stages head .free)
      (start.viewAt (Function.update state.placed head none))
      (Function.update (start.known (head :: pending)) head fun _ => True) after → post () after) :
    (do
      stopEntry head
      updateEntry head fun entry => { entry with occupied := false } : Lifecycle Unit).wp
        (managerSetting stoppable answers) post manager := by
  have hlasting := @lasting_update (start.known (head :: pending)) head (known_lasting _ _)
    (fun _ => True) (fun _ _ _ _ => trivial)
  -- forget the slot: stopping it changes more of its entry than its threads do
  have hweak : Framed stages (start.viewAt state.placed)
      (Function.update (start.known (head :: pending)) head fun _ => True) manager := by
    refine h.framed.mono fun slot entry hknown => ?_
    by_cases hsame : slot = head
    · subst hsame
      rw [Function.update_self]
      trivial
    · rw [Function.update_of_ne hsame]
      exact hknown
  simp only [Section.wp_bind]
  refine wp_stopEntry_framed hnone hlasting ?_ hweak (h.rest head) fun _ hstopped => ?_
  · intro before after _ _
    rw [Function.update_self]
    trivial
  · refine wp_releaseSlot hnone hlasting hstopped (Function.update_self ..) fun after hreleased => ?_
    rw [Function.update_idem] at hreleased
    exact hpost after hreleased

/-- A slot is configured anew and started. -/
theorem wp_refillSlot {P : Fin gwMaxChannels → GwChannelEntry → Prop} {view : ManagerView}
    {channel : GwChannelConfig} {config : GwConfig} {generation : Nat}
    {post : Except GwError Unit → GwChannelManager → Prop} (hnone : answers none)
    (hlasting : ∀ slot, Lasting (P slot))
    (h : Framed stages view (Function.update P head fun entry => entry.generation = generation)
      manager)
    (hfree : stages head = .free)
    (hpost : ∀ status stage after, StartEnded answers status stage →
      Framed (Function.update stages head stage)
        (view.place head (some (runConfigOf channel config)))
        (Function.update P head fun entry =>
          entry.generation = ((if (view.placed head).isSome then generation else 0) + 1) % 2 ^ 64)
        after → post status after) :
    (do
      configureSlot head channel config
      startEntry head : Lifecycle (Except GwError Unit)).wp
        (managerSetting stoppable answers) post manager := by
  have hstays : ∀ generation : Nat, ∀ slot, Lasting
      (Function.update P head (fun entry => entry.generation = generation) slot) :=
    fun generation => lasting_update hlasting (generation_lasting generation)
  have hknown : ∀ entry, Function.update P head (fun entry => entry.generation = generation)
      head entry → entry.generation = generation := by
    intro entry hknown
    rw [Function.update_self] at hknown
    exact hknown
  simp only [Section.wp_bind]
  refine wp_configureSlot hnone (hstays generation) h hfree hknown fun _ hconfigured => ?_
  rw [Function.update_idem] at hconfigured
  refine wp_startEntry_framed hnone (hstays _) ?_ hconfigured hfree ?_
    (fun after hstarted => hpost _ .held after .started hstarted)
    fun errno error after hanswer hfailed => ?_
  · intro before after hsame
    rw [Function.update_self]
    exact sameSetup_generation before after hsame
  · simp only [ManagerView.place, Function.update_self, Option.isSome_some]
  · rw [← Function.update_eq_self head stages, hfree] at hfailed
    exact hpost _ .free after (.failed error hanswer) hfailed

include hnone in
/-- A slot that is stopped, configured anew and started. -/
theorem wp_restartSlot {replacement : GwChannelConfig}
    {post : Except GwError Unit → GwChannelManager → Prop}
    (h : FirstLoop answers start (head :: pending) state progress stages manager)
    (hplaced : (state.placed head).isSome)
    (hpost : ∀ status stage after, StartEnded answers status stage →
      Framed (Function.update stages head stage)
        (start.viewAt
          (Function.update state.placed head (some (runConfigOf replacement start.candidate))))
        (Function.update (start.known (head :: pending)) head fun entry =>
          entry.generation = ((start.entries head).generation + 1) % 2 ^ 64) after →
      post status after) :
    (do
      stopEntry head
      configureSlot head replacement start.candidate
      startEntry head : Lifecycle (Except GwError Unit)).wp
        (managerSetting stoppable answers) post manager := by
  have hlasting := @lasting_update (start.known (head :: pending)) head (known_lasting _ _) _
    (generation_lasting (start.entries head).generation)
  -- of the slot only its generation survives the stop, and this is what the next one needs
  have hweak : Framed stages (start.viewAt state.placed)
      (Function.update (start.known (head :: pending)) head
        fun entry => entry.generation = (start.entries head).generation) manager := by
    refine h.framed.mono fun slot entry hknown => ?_
    by_cases hsame : slot = head
    · subst hsame
      rw [ReloadStart.known, fateSoFar_head] at hknown
      rw [Function.update_self]
      exact hknown.kept.generation
    · rw [Function.update_of_ne hsame]
      exact hknown
  rw [Section.wp_bind]
  refine wp_stopEntry_framed hnone hlasting ?_ hweak (h.rest head) fun _ hstopped => ?_
  · intro before after hsame
    rw [Function.update_self]
    exact sameSetup_generation before after hsame
  · refine wp_refillSlot hnone (known_lasting _ _) hstopped (Function.update_self ..)
      fun status stage after hended hframed => hpost status stage after hended ?_
    rw [Function.update_idem] at hframed
    have hoccupied : ((start.viewAt state.placed).placed head).isSome = true := hplaced
    rw [if_pos hoccupied] at hframed
    exact hframed

include hnone in
/-- The first loop, by induction on the slots that are pending: the fate of the slot at
their head says which branch of the code is taken. -/
theorem wp_reloadSlots {post : ReloadProgress → GwChannelManager → Prop}
    (h : FirstLoop answers start pending state progress stages manager) (hnodup : pending.Nodup)
    (hpost : ∀ progress' stages' after,
      FirstLoop answers start []
        (pending.foldl (reloadSlot start.candidate start.globalsEqual) state) progress' stages' after →
      post progress' after) :
    (reloadSlots start.candidate start.globalsEqual pending progress).wp
      (managerSetting stoppable answers) post manager := by
  induction pending generalizing state progress stages manager with
  | nil => exact hpost progress stages manager h
  | cons head pending ih =>
    obtain ⟨hnotin, hnodup⟩ := List.nodup_cons.mp hnodup
    have hplaced : state.placed head = start.view.placed head := h.untouched head List.mem_cons_self
    simp only [reloadSlots, Section.wp_bind]
    refine wp_read_framed hnone (known_lasting _ _) h.framed fun after hafter => ?_
    have hread : FirstLoop answers start (head :: pending) state progress stages after :=
      ⟨hafter, h.rest, h.changes, h.staged, h.untouched, h.status⟩
    cases hrun : start.view.placed head with
    | none =>
      have hempty : start.fate head = .empty := by
        rw [ReloadStart.fate, hrun]
        rfl
      simp only [h.framed.assertion.unoccupied (hplaced.trans hrun), Bool.not_false, if_true]
      refine ih (hread.skip hnotin (Or.inl hempty) ?_ ?_ rfl) hnodup hpost
      · rw [hempty, hplaced, hrun]
        rfl
      · rw [hempty]
        rfl
    | some run =>
      obtain ⟨hoccupied, hchannel⟩ := h.framed.assertion.channel (hplaced.trans hrun)
      simp only [hoccupied, hchannel, Bool.not_true, Bool.false_eq_true, if_false]
      cases hfind : findEnabledChannel start.candidate (runChannel run).id.bytes with
      | none =>
        have hremoved : start.fate head = .removed := by
          simp only [ReloadStart.fate, hrun, slotFate, hfind]
        have hstep := @wp_removeSlot stoppable answers hnone start pending head state progress stages
          after (fun _ final => (reloadSlots start.candidate start.globalsEqual pending
            { progress with
                changes := { progress.changes with removed := progress.changes.removed + 1 } }).wp
            (managerSetting stoppable answers) post final) hread fun final hframed =>
          ih (hread.remove hnotin hremoved hframed) hnodup hpost
        simpa only [Section.wp_bind] using hstep
      | some replacement =>
        by_cases hsame : (start.globalsEqual && channelConfigEqual (runChannel run) replacement) = true
        · have hunchanged : start.fate head = .unchanged run := by
            simp only [ReloadStart.fate, hrun, slotFate, hfind, hsame, if_true]
          simp only [hsame, if_true]
          refine ih (hread.skip hnotin (Or.inr ⟨run, hunchanged⟩) ?_ ?_ rfl) hnodup hpost
          · rw [hunchanged, hplaced, hrun]
            rfl
          · rw [hunchanged]
            rfl
        · have hrestarted : start.fate head =
              .restarted (runConfigOf replacement start.candidate) := by
            simp only [ReloadStart.fate, hrun, slotFate, hfind, hsame, Bool.false_eq_true, if_false]
          have hoccupied' : (state.placed head).isSome = true := by rw [hplaced, hrun]; rfl
          have hstep := @wp_restartSlot stoppable _ hnone _ _ _ _ _ _ _ _ _ hread hoccupied'
            fun status stage final hended hframed =>
              ih (hread.restart hnotin hrestarted hended hframed) hnodup hpost
          simp only [Section.wp_bind] at hstep
          simpa only [hsame, Bool.false_eq_true, if_false, Section.wp_bind] using hstep

end First

/-! ## The second loop -/

namespace ReloadStart

variable (start : ReloadStart)

/-- A slot that ran nothing after the first loop, and runs something now. -/
def Added (placed : Placement) (slot : Fin gwMaxChannels) : Prop :=
  (start.fate slot).run = none ∧ (placed slot).isSome = true

/-- What is known of the slots while the second loop runs: an added one was configured as
the first of its slot, and any other is as the first loop has left it. -/
def knownAdded (placed : Placement) (slot : Fin gwMaxChannels) (entry : GwChannelEntry) : Prop :=
  (start.Added placed slot ∧ entry.generation = 1) ∨
    SlotHistory (start.entries slot) (start.fate slot) entry

/-- The stages of the slots while the second loop runs. -/
def stagedAdded (placed : Placement) (started : Prop) (slot : Fin gwMaxChannels)
    (stage : SlotStage) : Prop :=
  (start.Added placed slot ∧ (started → stage = .held)) ∨
    (¬ start.Added placed slot ∧ StageHistory (start.stages slot) started (start.fate slot) stage)

end ReloadStart

/-- The invariant of the second loop, and what it leaves.  The flag beside the placement
says that a channel has found no slot, which ends the loop. -/
structure SecondLoop (answers : Option Errno → Prop) (start : ReloadStart)
    (state : Reloading × Bool) (progress : ReloadProgress)
    (stages : Fin gwMaxChannels → SlotStage) (manager : GwChannelManager) : Prop where
  framed : Framed stages (start.viewAt state.1.placed) (start.knownAdded state.1.placed) manager
  rest : ∀ slot, stages slot = .free ∨ stages slot = .held
  changes : progress.changes = state.1.changes
  staged : ∀ slot,
    start.stagedAdded state.1.placed (progress.finalStatus = .ok ()) slot (stages slot)
  /-- What the first loop has left running keeps its slot. -/
  keeps : ∀ slot run, (start.fate slot).run = some run → state.1.placed slot = some run
  status : state.2 = false → progress.Explained answers
  overflow : state.2 = true → progress.finalStatus ≠ .ok ()

section Second

variable {stoppable : Prop} {answers : Option Errno → Prop} (hnone : answers none)
  {start : ReloadStart} {state : Reloading} {progress progress' : ReloadProgress}
  {stages stages' : Fin gwMaxChannels → SlotStage} {manager manager' : GwChannelManager}
  {slot : Fin gwMaxChannels} {channel : GwChannelConfig}

theorem knownAdded_lasting (start : ReloadStart) (placed : Placement) (slot : Fin gwMaxChannels) :
    Lasting (start.knownAdded placed slot) := by
  intro before after h hstep
  rcases h with ⟨hadded, hgeneration⟩ | hhistory
  · exact Or.inl ⟨hadded, generation_lasting 1 _ _ hgeneration hstep⟩
  · exact Or.inr (slotHistory_lasting _ _ _ _ hhistory hstep)

/-- The second loop starts where the first one ends. -/
theorem FirstLoop.second (h : FirstLoop answers start [] state progress stages manager)
    (hplaced : ∀ slot, state.placed slot = (start.fate slot).run) :
    SecondLoop answers start (state, false) progress stages manager := by
  have hfate : ∀ slot, start.fateSoFar [] slot = start.fate slot :=
    fun slot => if_neg (List.not_mem_nil)
  refine ⟨h.framed.mono ?_, h.rest, h.changes, ?_, ?_, fun _ => h.status, by simp⟩
  · intro slot entry hknown
    rw [ReloadStart.known, hfate] at hknown
    exact Or.inr hknown
  · intro slot
    have hstaged := h.staged slot
    rw [hfate] at hstaged
    refine Or.inr ⟨?_, hstaged⟩
    rintro ⟨hnone, hsome⟩
    rw [hplaced, hnone] at hsome
    cases hsome
  · intro slot run hrun
    rw [hplaced, hrun]

/-- A slot that runs nothing is free. -/
theorem SecondLoop.free {overflow : Bool}
    (h : SecondLoop answers start (state, overflow) progress stages manager)
    (hslot : state.placed slot = none) : stages slot = .free := by
  rcases h.rest slot with hfree | hheld
  · exact hfree
  · have hok := h.framed.assertion.slots slot
    rw [hheld] at hok
    have hoccupied := h.framed.assertion.occupied slot
    rw [hok.2.1] at hoccupied
    simp only [ReloadStart.viewAt, hslot, Option.isSome_none] at hoccupied
    cases hoccupied

theorem added_update {run : GwConfig} {other : Fin gwMaxChannels} (hne : other ≠ slot) :
    start.Added (Function.update state.placed slot (some run)) other ↔
      start.Added state.placed other := by
  unfold ReloadStart.Added
  rw [Function.update_of_ne hne]

/-- A channel gets a slot that ran nothing, whether its start succeeds or not. -/
theorem SecondLoop.add (h : SecondLoop answers start (state, false) progress stages manager)
    (hslot : state.placed slot = none) {status : Except GwError Unit} {stage : SlotStage}
    (hended : StartEnded answers status stage) {run : GwConfig}
    (hframed : Framed (Function.update stages slot stage)
      (start.viewAt (Function.update state.placed slot (some run)))
      (Function.update (start.knownAdded state.placed) slot fun entry => entry.generation = 1)
      manager') :
    SecondLoop answers start
      (⟨Function.update state.placed slot (some run),
        { state.changes with added := state.changes.added + 1 }⟩, false)
      (ReloadProgress.settle
        { progress with changes := { progress.changes with added := progress.changes.added + 1 } }
        status)
      (Function.update stages slot stage) manager' := by
  have hnothing : (start.fate slot).run = none := by
    cases hrun : (start.fate slot).run with
    | none => rfl
    | some run =>
      have hkept := h.keeps slot run hrun
      simp only [hslot] at hkept
      cases hkept
  have hadded : start.Added (Function.update state.placed slot (some run)) slot :=
    ⟨hnothing, by rw [Function.update_self]; rfl⟩
  have hchanges := h.changes
  simp only at hchanges
  refine ⟨hframed.mono ?_, ?_, ?_, ?_, ?_, ?_, by simp⟩
  · intro other entry hknown
    by_cases hsame : other = slot
    · subst hsame
      rw [Function.update_self] at hknown
      exact Or.inl ⟨hadded, hknown⟩
    · rw [Function.update_of_ne hsame] at hknown
      rw [ReloadStart.knownAdded, added_update hsame]
      exact hknown
  · refine fun other => resting_update h.rest ?_ other
    cases hended with
    | started => exact Or.inr rfl
    | failed error answered => exact Or.inl rfl
  · cases hended <;> simp only [ReloadProgress.settle, hchanges]
  · intro other
    by_cases hsame : other = slot
    · subst hsame
      rw [Function.update_self]
      refine Or.inl ⟨hadded, ?_⟩
      cases hended with
      | started => exact fun _ => rfl
      | failed error answered => exact fun hok => by cases hok
    · rw [Function.update_of_ne hsame, ReloadStart.stagedAdded, added_update hsame]
      have hearlier : (ReloadProgress.settle
          { progress with changes := { progress.changes with added := progress.changes.added + 1 } }
          status).finalStatus = .ok () → progress.finalStatus = .ok () := by
        cases hended with
        | started => exact fun hok => hok
        | failed error answered => exact fun hok => by cases hok
      rcases h.staged other with ⟨hplaced, hheld⟩ | ⟨hplaced, hhistory⟩
      · exact Or.inl ⟨hplaced, fun hok => hheld (hearlier hok)⟩
      · exact Or.inr ⟨hplaced, hhistory.mono hearlier⟩
  · intro other kept hkept
    have hne : other ≠ slot := by
      rintro rfl
      rw [hnothing] at hkept
      cases hkept
    exact (Function.update_of_ne hne ..).trans (h.keeps other kept hkept)
  · intro _
    cases hended with
    | started =>
      exact (h.status rfl).imp_right fun hfailed => ⟨hfailed.1, Nat.add_pos_right _ (Nat.succ_pos _)⟩
    | failed error answered => exact Or.inr ⟨⟨_, answered⟩, Nat.add_pos_right _ (Nat.succ_pos _)⟩

include hnone in
/-- The second loop, by induction on the channels of the candidate. -/
theorem wp_addChannels {channels : List GwChannelConfig}
    {post : ReloadProgress → GwChannelManager → Prop}
    (h : SecondLoop answers start (state, false) progress stages manager)
    (hpost : ∀ progress' stages' after,
      SecondLoop answers start (addEach start.candidate channels state) progress' stages' after →
      post progress' after) :
    (addChannels start.candidate channels progress).wp (managerSetting stoppable answers) post
      manager := by
  induction channels generalizing state progress stages manager with
  | nil => exact hpost progress stages manager h
  | cons channel channels ih =>
    simp only [addChannels, Section.wp_bind]
    refine wp_read_framed hnone (knownAdded_lasting _ _) h.framed fun after hafter => ?_
    rw [h.framed.assertion.findEntry]
    have hread : SecondLoop answers start (state, false) progress stages after :=
      ⟨hafter, h.rest, h.changes, h.staged, h.keeps, h.status, h.overflow⟩
    rw [addEach] at hpost
    by_cases hskip : (!channel.enabled || (placedAt state.placed channel.id.bytes).isSome) = true
    · rw [if_pos hskip] at hpost
      simp only [ReloadStart.viewAt, hskip, if_true]
      exact ih hread hpost
    · rw [if_neg hskip] at hpost
      simp only [ReloadStart.viewAt, hskip, Bool.false_eq_true, if_false, Section.wp_bind]
      refine wp_read_framed hnone (knownAdded_lasting _ _) hafter fun final hfinal => ?_
      rw [hafter.assertion.findFreeEntry]
      have hnext : SecondLoop answers start (state, false) progress stages final :=
        ⟨hfinal, h.rest, h.changes, h.staged, h.keeps, h.status, h.overflow⟩
      cases hfree : freeSlot state.placed with
      | none =>
        -- the loop ends with `GW_ERR_OVERFLOW`, and what was started stays
        rw [hfree] at hpost
        simp only [ReloadStart.viewAt, hfree]
        refine hpost _ stages final
          ⟨hfinal, h.rest, h.changes, ?_, h.keeps, by simp, fun _ hok => by cases hok⟩
        intro slot
        rcases h.staged slot with ⟨hplaced, -⟩ | ⟨hplaced, hhistory⟩
        · exact Or.inl ⟨hplaced, fun hok => by cases hok⟩
        · exact Or.inr ⟨hplaced, hhistory.mono fun hok => by cases hok⟩
      | some slot =>
        rw [hfree] at hpost
        simp only [ReloadStart.viewAt, hfree]
        have hslot := freeSlot_some hfree
        have hweak : Framed stages (start.viewAt state.placed)
            (Function.update (start.knownAdded state.placed) slot
              fun entry => entry.generation = (final.entries slot).generation) final := by
          refine ⟨hfinal.assertion, fun other => ?_⟩
          by_cases hsame : other = slot
          · subst hsame
            rw [Function.update_self]
          · rw [Function.update_of_ne hsame]
            exact hfinal.known other
        have hstep := @wp_refillSlot stoppable answers slot stages final
          (start.knownAdded state.placed) (start.viewAt state.placed) channel start.candidate
          (final.entries slot).generation
          (fun status after => (addChannels start.candidate channels
            (ReloadProgress.settle
              { progress with
                  changes := { progress.changes with added := progress.changes.added + 1 } }
              status)).wp (managerSetting stoppable answers) post after)
          hnone (knownAdded_lasting _ _) hweak (hnext.free hslot)
          fun status stage after hended hframed => by
            have hunplaced : ((start.viewAt state.placed).placed slot).isSome = false := by
              simp [ReloadStart.viewAt, hslot]
            simp only [hunplaced, Bool.false_eq_true, if_false, Nat.zero_add] at hframed
            exact ih (hnext.add hslot hended hframed) hpost
        simpa only [Section.wp_bind] using hstep

end Second

/-! ## The whole section -/

/-- The placement a reload ends with, and whether a channel found no slot. -/
def ReloadStart.final (start : ReloadStart) : Reloading × Bool :=
  reloadPlacement start.candidate start.globalsEqual start.view.placed

/-- What a reload that was not rejected leaves. -/
structure ReloadEnds (answers : Option Errno → Prop) (start : ReloadStart)
    (result : Except GwError Unit × GwChannelReloadSummary)
    (stages : Fin gwMaxChannels → SlotStage) (manager : GwChannelManager) : Prop where
  framed : Framed stages ⟨start.candidate, start.view.started, start.final.1.placed⟩
    (start.knownAdded start.final.1.placed) manager
  rest : ∀ slot, stages slot = .free ∨ stages slot = .held
  changes : result.2 = start.final.1.changes
  staged : ∀ slot, start.stagedAdded start.final.1.placed (result.1 = .ok ()) slot (stages slot)
  status : start.final.2 = false → ReloadProgress.Explained answers ⟨result.2, result.1⟩
  overflow : start.final.2 = true → result.1 ≠ .ok ()

/-- How the manager's stop signal can change: it is set, where the manager is
stoppable, and never cleared. -/
def StopKept (stoppable : Prop) (before after : GwChannelManager) : Prop :=
  (before.stopSignal ≠ 0 → after.stopSignal ≠ 0) ∧
    (¬ stoppable → after.stopSignal = before.stopSignal)

section Whole

variable {stoppable : Prop} {answers : Option Errno → Prop} (hnone : answers none)
  {view : ManagerView} {stages : Fin gwMaxChannels → SlotStage} {manager : GwChannelManager}
  {candidate : GwConfig}

/-- The supervisor threads never touch the signal. -/
theorem stopKept_stable (stoppable : Prop) (answers : Option Errno → Prop)
    (before : GwChannelManager) :
    (managerSetting stoppable answers).Stable (StopKept stoppable before) := by
  intro manager after h hstep
  cases hstep with
  | thread slot step => exact ⟨h.1, h.2⟩
  | finishes slot found phase => exact ⟨h.1, h.2⟩
  | requestStop allowed signal nonzero =>
    exact ⟨fun _ => nonzero, fun hnot => absurd allowed hnot⟩

theorem ownSteps_lasting (before : GwChannelEntry) : Lasting (OwnSteps before) :=
  fun _ _ h hstep => Relation.ReflTransGen.tail h hstep

theorem Framed.setConfig {P : Fin gwMaxChannels → GwChannelEntry → Prop}
    (h : Framed stages view P manager) (config : GwConfig) :
    Framed stages { view with config := config } P { manager with config := config } :=
  ⟨⟨h.assertion.slots, h.assertion.counter, by rw [← h.assertion.view]; rfl⟩, h.known⟩

include hnone in
/-- The whole section.  It is rejected without a trace when the manager is not running or
the candidate does not pass, and else both loops run and the candidate is the
configuration. -/
theorem wp_gwChannelManagerReload
    {post : Except GwError Unit × GwChannelReloadSummary → GwChannelManager → Prop}
    (h : At stages view manager) (hrest : ∀ slot, stages slot = .free ∨ stages slot = .held)
    (hrejected : ∀ error after,
      view.started = false ∨ (stoppable ∨ manager.stopSignal ≠ 0) ∨
        gwConfigValidate candidate ≠ .ok () →
      Framed stages view (fun slot => OwnSteps (manager.entries slot)) after →
      post (.error error, ⟨0, 0, 0, 0⟩) after)
    (haccepted : ∀ result stages' after,
      view.started = true → manager.stopSignal = 0 → gwConfigValidate candidate = .ok () →
      ReloadEnds answers
        ⟨candidate, workerGlobalsEqual view.config candidate, view, stages, manager.entries⟩ result
        stages' after →
      post result after) :
    (gwChannelManagerReload candidate).wp (managerSetting stoppable answers) post manager := by
  have hlasting : ∀ slot, Lasting (OwnSteps (manager.entries slot)) := fun _ => ownSteps_lasting _
  have hstart : Framed stages view (fun slot => OwnSteps (manager.entries slot)) manager :=
    ⟨h, fun _ => .refl⟩
  have hstarted : manager.started = view.started := by
    rw [← h.view]
    rfl
  simp only [gwChannelManagerReload, Section.wp_bind]
  -- the stop signal is read twice, and may be set in between where the manager is stoppable
  refine Section.wp_read (fun after =>
      Framed stages view (fun slot => OwnSteps (manager.entries slot)) after ∧
        StopKept stoppable manager after) ⟨none, hnone⟩ ⟨hstart, ⟨fun h => h, fun _ => rfl⟩⟩ ?_
    (fun _ h => h.1.assertion.safe) fun first hfirst => ?_
  · intro before after hbefore hstep
    exact ⟨framed_stable stoppable answers hlasting _ _ hbefore.1 hstep,
      stopKept_stable stoppable answers manager _ _ hbefore.2 hstep⟩
  refine wp_read_framed hnone hlasting hfirst.1 fun second hsecond => ?_
  by_cases hunavailable : (!manager.started || decide (first.stopSignal ≠ 0)) = true
  · rw [if_pos hunavailable]
    refine hrejected _ second ?_ hsecond
    rw [Bool.or_eq_true, Bool.not_eq_true', decide_eq_true_eq, hstarted] at hunavailable
    rcases hunavailable with hnot | hstop
    · exact Or.inl hnot
    · refine Or.inr (Or.inl ?_)
      by_cases hstoppable : stoppable
      · exact Or.inl hstoppable
      · exact Or.inr (hfirst.2.2 hstoppable ▸ hstop)
  · rw [if_neg hunavailable]
    simp only [Bool.or_eq_true, Bool.not_eq_true', decide_eq_true_eq, not_or, Bool.not_eq_false,
      not_not, hstarted] at hunavailable
    obtain ⟨hrunning, hquiet⟩ := hunavailable
    have hnever : manager.stopSignal = 0 := by
      by_contra hstop
      exact hfirst.2.1 hstop hquiet
    cases hvalid : gwConfigValidate candidate with
    | error error =>
      exact hrejected error second (Or.inr (Or.inr (by rw [hvalid]; simp))) hsecond
    | ok value =>
      simp only [Section.wp_bind]
      refine wp_read_framed hnone hlasting hsecond fun third hthird => ?_
      have hglobals : workerGlobalsEqual second.config candidate =
          workerGlobalsEqual view.config candidate := by
        rw [← hsecond.assertion.view]
        rfl
      rw [hglobals]
      let start : ReloadStart :=
        ⟨candidate, workerGlobalsEqual view.config candidate, view, stages, manager.entries⟩
      have hpending : ∀ slot, start.fateSoFar slots slot = .empty :=
        fun slot => if_pos (List.mem_finRange slot)
      have hloop : FirstLoop answers start slots ⟨view.placed, ⟨0, 0, 0, 0⟩⟩ ⟨⟨0, 0, 0, 0⟩, .ok ()⟩
          stages third := by
        refine ⟨hthird.mono ?_, hrest, rfl, ?_, fun _ _ => rfl, Or.inl rfl⟩
        · intro slot entry hown
          rw [ReloadStart.known, hpending]
          exact hown
        · intro slot
          rw [hpending]
          exact rfl
      refine wp_reloadSlots hnone hloop (List.nodup_finRange _) fun progress stages' _ hpassed => ?_
      have hplaced : ∀ slot, (slots.foldl (reloadSlot start.candidate start.globalsEqual)
          ⟨view.placed, ⟨0, 0, 0, 0⟩⟩).placed slot = (start.fate slot).run :=
        reloadEach_placed candidate (workerGlobalsEqual view.config candidate) view.placed
      refine wp_addChannels hnone (hpassed.second hplaced) fun progress' stages'' _ hadded => ?_
      refine wp_write_framed hnone (knownAdded_lasting _ _) (hadded.framed.setConfig candidate)
        fun after hafter => ?_
      exact haccepted _ stages'' after hrunning hnever hvalid
        ⟨hafter, hadded.rest, hadded.changes, hadded.staged, hadded.status, hadded.overflow⟩

end Whole

end LearnApue.Gateway
