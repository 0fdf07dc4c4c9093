import LearnApue.Gateway.ManagerThreads

set_option autoImplicit false

/-!
# Gateway: the sections of the channel manager

One rule for each function that runs under `lifecycle_lock`: from a state in which
every slot is free or holds its thread, to such a state, among the supervisor threads.

The lock does not stop the supervisor threads: each one runs on between any two accesses
of its lock's holder, and ends when it likes.  So an assertion about the manager is one
that their steps keep (`At`), and a rule has a postcondition of every state that the
section can end in.  What an access reads of a slot is worth nothing at the next access,
except for what only the holder of the lock writes: the placement and the flag
`thread_started`.

`start_entry` and `stop_entry` are the leaves.  The loops over the slots follow from them
by induction on the list, and the functions of the interface from the loops.
-/

namespace LearnApue.Gateway

open LearnApue.Foundation

section Sections

variable {stoppable : Prop} {answers : Option Errno → Prop} (hnone : answers none)
  {stages : Fin gwMaxChannels → SlotStage} {view : ManagerView} {manager : GwChannelManager}
  {slot : Fin gwMaxChannels}

/-- `if (condition) body`. -/
theorem wp_runWhen {condition : Bool} {body : Lifecycle Unit}
    {post : Unit → GwChannelManager → Prop}
    (htrue : condition = true → body.wp (managerSetting stoppable answers) post manager)
    (hfalse : condition = false → post () manager) :
    (runWhen condition body).wp (managerSetting stoppable answers) post manager := by
  cases condition with
  | true => exact htrue rfl
  | false => exact hfalse rfl

/-! ## `start_entry` and `stop_entry` -/

include hnone in
/-- `start_entry` on a free slot: it ends with the thread held, or with the slot free again
and an error that is the answer of `pthread_create`. -/
theorem wp_startEntry {post : Except GwError Unit → GwChannelManager → Prop}
    (h : At stages view manager) (hfree : stages slot = .free)
    (hplaced : (view.placed slot).isSome)
    (hstarted : ∀ after, At (Function.update stages slot .held) view after → post (.ok ()) after)
    (hfailed : ∀ errno error after, answers (some errno) → At stages view after →
      post (.error error) after) :
    (startEntry slot).wp (managerSetting stoppable answers) post manager := by
  simp only [startEntry, Section.wp_bind]
  refine wp_updateEntry_keep hnone h (fun _ => ⟨rfl, rfl, rfl, rfl, rfl, rfl⟩) fun _ h => ?_
  refine wp_updateEntry_keep hnone h (fun _ => ⟨rfl, rfl, rfl, rfl, rfl, rfl⟩) fun _ h => ?_
  refine wp_updateEntry_keep hnone h (fun _ => ⟨rfl, rfl, rfl, rfl, rfl, rfl⟩) fun _ h => ?_
  -- the thread is counted as active in front of its creation
  refine wp_announceThread hnone h hfree hplaced fun _ h => ?_
  refine wp_createThread hnone h (Function.update_self ..) (fun _ h => ?_) fun errno _ hanswer h => ?_
  · simp only [Section.wp_bind]
    rw [Function.update_idem] at h
    refine wp_setStarted hnone h (Function.update_self ..) fun after h => ?_
    rw [Function.update_idem] at h
    exact hstarted after h
  · simp only [Section.wp_bind]
    rw [Function.update_idem] at h
    -- no thread came of it, so the count is taken back
    refine wp_retractThread hnone h (Function.update_self ..) fun _ h => ?_
    rw [Function.update_idem, ← hfree, Function.update_eq_self] at h
    refine wp_updateEntry_keep hnone h (fun _ => ⟨rfl, rfl, rfl, rfl, rfl, rfl⟩) fun _ h => ?_
    exact wp_read_at hnone h fun after h => hfailed errno _ after hanswer h

include hnone in
/-- `reap_entry` joins the thread of a slot and frees it. -/
theorem wp_reapEntry {post : Unit → GwChannelManager → Prop} (h : At stages view manager)
    (hheld : stages slot = .held)
    (hpost : ∀ after, At (Function.update stages slot .free) view after → post () after) :
    (reapEntry slot).wp (managerSetting stoppable answers) post manager := by
  simp only [reapEntry, Section.wp_bind]
  refine wp_joinThread hnone h hheld fun _ h => ?_
  refine wp_clearStarted hnone h (Function.update_self ..) fun after h => ?_
  rw [Function.update_idem] at h
  exact hpost after h

include hnone in
/-- `stop_entry` frees a slot, which may have been free before. -/
theorem wp_stopEntry {post : Unit → GwChannelManager → Prop} (h : At stages view manager)
    (hrest : stages slot = .free ∨ stages slot = .held)
    (hpost : ∀ after, At (Function.update stages slot .free) view after → post () after) :
    (stopEntry slot).wp (managerSetting stoppable answers) post manager := by
  simp only [stopEntry, Section.wp_bind]
  refine wp_readStarted hnone h hrest fun _ h => wp_runWhen (fun hheld => ?_) fun hfree => ?_
  · simp only [Section.wp_bind]
    refine wp_updateEntry_keep hnone h (fun _ => ⟨rfl, rfl, rfl, rfl, rfl, rfl⟩) fun _ h => ?_
    exact wp_reapEntry hnone h (of_decide_eq_true hheld) hpost
  · have hstage : stages slot = .free := hrest.resolve_right (of_decide_eq_false hfree)
    rw [← Function.update_eq_self slot stages, hstage] at h
    exact hpost _ h

/-! ## Between two sections -/

/-- What holds between two sections: every slot is free or holds its thread, and none does
before the manager is started.  The two other stages of a slot, announced and created, are
seen by nobody but the holder of the lock. -/
structure Resting (stages : Fin gwMaxChannels → SlotStage) (view : ManagerView)
    (manager : GwChannelManager) : Prop where
  assertion : At stages view manager
  rest : ∀ slot, stages slot = .free ∨ stages slot = .held
  idle : view.started = false → ∀ slot, stages slot = .free

/-- A resting manager with this view. -/
def Rests (view : ManagerView) (manager : GwChannelManager) : Prop :=
  ∃ stages, Resting stages view manager

/-- A slot that a section leaves free or held spoils nothing for the others. -/
theorem resting_update {stage : SlotStage} (hrest : ∀ slot, stages slot = .free ∨ stages slot = .held)
    (hstage : stage = .free ∨ stage = .held) (other : Fin gwMaxChannels) :
    Function.update stages slot stage other = .free ∨
      Function.update stages slot stage other = .held := by
  by_cases hsame : other = slot
  · subst hsame
    rw [Function.update_self]
    exact hstage
  · rw [Function.update_of_ne hsame]
    exact hrest other

/-- Of a started manager it is enough that no slot is under work. -/
theorem rests_started (hstarted : view.started = true) (h : At stages view manager)
    (hrest : ∀ slot, stages slot = .free ∨ stages slot = .held) : Rests view manager := by
  refine ⟨stages, h, hrest, fun hnot => ?_⟩
  rw [hstarted] at hnot
  cases hnot

/-! ## The loops over the slots -/

include hnone in
/-- The loop that stops slots frees them. -/
theorem wp_stopEntries {list : List (Fin gwMaxChannels)} {post : Unit → GwChannelManager → Prop}
    (h : At stages view manager) (hrest : ∀ slot, stages slot = .free ∨ stages slot = .held)
    (hpost : ∀ after, At (fun slot => if slot ∈ list then .free else stages slot) view after →
      post () after) :
    (stopEntries list).wp (managerSetting stoppable answers) post manager := by
  induction list generalizing stages manager with
  | nil => exact hpost manager (by simpa using h)
  | cons head rest ih =>
    simp only [stopEntries, Section.wp_bind]
    refine wp_stopEntry hnone h (hrest head) fun _ h => ?_
    refine ih h (resting_update hrest (Or.inl rfl)) fun after h => hpost after ?_
    have hstages : (fun slot => if slot ∈ rest then .free else
        Function.update stages head .free slot) =
          fun slot => if slot ∈ head :: rest then .free else stages slot := by
      funext slot
      by_cases hsame : slot = head
      · simp [hsame]
      · simp [hsame]
    rw [hstages] at h
    exact h

include hnone in
/-- After stopping all slots none has a thread. -/
theorem wp_stopAll {post : Unit → GwChannelManager → Prop}
    (h : At stages view manager) (hrest : ∀ slot, stages slot = .free ∨ stages slot = .held)
    (hpost : ∀ after, At (fun _ => .free) view after → post () after) :
    (stopEntries slots).wp (managerSetting stoppable answers) post manager := by
  refine wp_stopEntries hnone h hrest fun after h => hpost after ?_
  simpa [slots] using h

include hnone in
/-- The loop that starts free slots, to its end or to the first failure. -/
theorem wp_startEntries {list : List (Fin gwMaxChannels)}
    {post : Except GwError Unit → GwChannelManager → Prop} (h : At stages view manager)
    (hrest : ∀ slot, stages slot = .free ∨ stages slot = .held) (hnodup : list.Nodup)
    (hfree : ∀ slot ∈ list, stages slot = .free)
    (hpost : ∀ status stages' after, (∀ slot, stages' slot = .free ∨ stages' slot = .held) →
      At stages' view after → post status after) :
    (startEntries list).wp (managerSetting stoppable answers) post manager := by
  induction list generalizing stages manager with
  | nil => exact hpost _ stages manager hrest h
  | cons head rest ih =>
    obtain ⟨hnotin, hnodup⟩ := List.nodup_cons.mp hnodup
    have hrestFree : ∀ slot ∈ rest, stages slot = .free :=
      fun slot hslot => hfree slot (List.mem_cons_of_mem _ hslot)
    simp only [startEntries, Section.wp_bind]
    refine wp_read_at hnone h fun after hafter => ?_
    by_cases hoccupied : (manager.entries head).occupied = true
    · simp only [hoccupied, if_true, Section.wp_bind]
      refine wp_startEntry hnone hafter (hfree head List.mem_cons_self)
        ((h.occupied head).symm.trans hoccupied) (fun started hstarted => ?_)
        fun _ _ failed _ hfailed => hpost _ stages failed hrest hfailed
      -- the slots behind it are other slots, and as free as they were
      refine ih hstarted (resting_update hrest (Or.inr rfl)) hnodup fun slot hslot => ?_
      rw [Function.update_of_ne (fun heq : slot = head => hnotin (heq ▸ hslot))]
      exact hrestFree slot hslot
    · simp only [hoccupied]
      exact ih hafter hrest hnodup hrestFree

include hnone in
/-- A slot is waited for: its thread is joined, when it has one. -/
theorem wp_waitEntry {post : Unit → GwChannelManager → Prop} (h : At stages view manager)
    (hrest : ∀ slot, stages slot = .free ∨ stages slot = .held)
    (hpost : ∀ stage after, stage = .free ∨ stages slot = .held ∧ stage = .held →
      At (Function.update stages slot stage) view after → post () after) :
    (waitEntry slot).wp (managerSetting stoppable answers) post manager := by
  -- behind the join, or without one, the result of the slot is merged into the manager's
  have hresult : ∀ {stages : Fin gwMaxChannels → SlotStage} {manager : GwChannelManager}
      (occupied : Bool), At stages view manager → (∀ after, At stages view after → post () after) →
      (do
        let result ← readEntry slot (·.result)
        runWhen (occupied && result ≠ 0)
          (.write fun manager => { manager with result := 1 }) : Lifecycle Unit).wp
        (managerSetting stoppable answers) post manager := by
    intro stages manager occupied h hpost
    simp only [Section.wp_bind]
    refine wp_read_at hnone h fun after h => wp_runWhen (fun _ => ?_) fun _ => hpost after h
    exact wp_write_keep hnone h (fun _ => ⟨rfl, rfl, rfl⟩) hpost
  simp only [waitEntry, Section.wp_bind] at hresult ⊢
  refine wp_read_at hnone h fun _ h => wp_readStarted hnone h (hrest slot) fun _ h => ?_
  refine wp_runWhen (fun hreap => ?_) fun hskip => ?_
  · have hheld : stages slot = .held := of_decide_eq_true (Bool.and_eq_true_iff.mp hreap).2
    refine wp_reapEntry hnone h hheld fun _ h => ?_
    exact hresult _ h fun after h => hpost .free after (Or.inl rfl) h
  · refine hresult _ h fun after h => ?_
    rw [← Function.update_eq_self slot stages] at h
    refine hpost (stages slot) after ?_ h
    rcases hrest slot with hfree | hheld
    · exact Or.inl hfree
    · exact Or.inr ⟨hheld, hheld⟩

include hnone in
/-- The loop that waits for the slots frees some of them and takes none. -/
theorem wp_waitEntries {list : List (Fin gwMaxChannels)} {post : Unit → GwChannelManager → Prop}
    (h : At stages view manager) (hrest : ∀ slot, stages slot = .free ∨ stages slot = .held)
    (hpost : ∀ stages' after, (∀ slot, stages' slot = .free ∨ stages' slot = .held) →
      (∀ slot, stages slot = .free → stages' slot = .free) → At stages' view after →
      post () after) :
    (waitEntries list).wp (managerSetting stoppable answers) post manager := by
  induction list generalizing stages manager with
  | nil => exact hpost stages manager hrest (fun _ h => h) h
  | cons head rest ih =>
    simp only [waitEntries, Section.wp_bind]
    refine wp_waitEntry hnone h hrest fun stage after hstage hafter => ?_
    have hkept : stage = .free ∨ stage = .held := hstage.imp_right And.right
    refine ih hafter (resting_update hrest hkept) fun stages' final hrest' hfree hfinal => ?_
    refine hpost stages' final hrest' (fun slot hslot => hfree slot ?_) hfinal
    by_cases hsame : slot = head
    · subst hsame
      rw [Function.update_self]
      rcases hstage with hstage | ⟨hheld, -⟩
      · exact hstage
      · rw [hslot] at hheld
        cases hheld
    · rw [Function.update_of_ne hsame]
      exact hslot

/-! ## The functions -/

theorem At.setStarted (h : At stages view manager) (started : Bool) :
    At stages { view with started := started } { manager with started := started } :=
  ⟨h.slots, h.counter, by rw [← h.view]; rfl⟩

/-- With no threads the manager rests, started or not. -/
theorem rests_of_free {view : ManagerView} {manager : GwChannelManager}
    (h : At (fun _ => .free) view manager) : Rests view manager :=
  ⟨_, h, fun _ => Or.inl rfl, fun _ _ => rfl⟩

include hnone in
/-- The metrics thread is none of a slot. -/
theorem wp_createMetricsThread {post : Option Errno → GwChannelManager → Prop}
    (h : At stages view manager) (hpost : ∀ answer after, At stages view after → post answer after) :
    createMetricsThread.wp (managerSetting stoppable answers) post manager := by
  refine Section.wp_step (fun _ => At stages view) ⟨manager, .refl, none, hnone, rfl⟩ ?_
    (fun _ => at_stable stoppable answers stages view) (fun _ _ h => h.safe) hpost
  intro answer result after _ heq
  rw [Option.some.injEq, Prod.mk.injEq] at heq
  exact heq.2 ▸ h

include hnone in
/-- A start that fails half-way stops what it has started. -/
theorem wp_gwChannelManagerStart {post : Except GwError Unit → GwChannelManager → Prop}
    (h : Resting stages view manager)
    (hpost : ∀ status started after, Rests { view with started := started } after →
      post status after) :
    gwChannelManagerStart.wp (managerSetting stoppable answers) post manager := by
  simp only [gwChannelManagerStart, Section.wp_bind]
  refine wp_read_at hnone h.assertion fun after hafter => ?_
  have hstarted : manager.started = view.started := by
    rw [← h.assertion.view]
    rfl
  cases hcase : manager.started with
  | true =>
    -- a second start changes nothing
    simp only [if_true]
    exact hpost _ view.started after ⟨stages, hafter, h.rest, h.idle⟩
  | false =>
    simp only [Bool.false_eq_true, if_false, Section.wp_bind]
    have hfree := h.idle (hstarted.symm.trans hcase)
    refine wp_write_at hnone (hafter.setStarted true) fun _ h' => ?_
    refine wp_startEntries hnone h' h.rest (List.nodup_finRange _) (fun slot _ => hfree slot)
      fun status stages' _ hrest h' => ?_
    cases status with
    | error error =>
      simp only [Section.wp_bind, gwChannelManagerRequestStop]
      refine wp_write_keep hnone h' (fun _ => ⟨rfl, rfl, rfl⟩) fun _ h' => ?_
      exact wp_stopAll hnone h' hrest fun after h' => hpost _ true after (rests_of_free h')
    | ok value =>
      simp only [Section.wp_bind]
      refine wp_createMetricsThread hnone h' fun answer _ h' => ?_
      cases answer with
      | none =>
        simp only [Section.wp_bind]
        refine wp_write_keep hnone h' (fun _ => ⟨rfl, rfl, rfl⟩) fun after h' => ?_
        exact hpost _ true after ⟨stages', h', hrest, fun hnot => by cases hnot⟩
      | some errno =>
        simp only [Section.wp_bind, gwChannelManagerRequestStop]
        refine wp_write_keep hnone h' (fun _ => ⟨rfl, rfl, rfl⟩) fun _ h' => ?_
        refine wp_stopAll hnone h' hrest fun _ h' => ?_
        refine wp_write_at hnone (h'.setStarted false) fun after h' => ?_
        exact hpost _ false after (rests_of_free h')

include hnone in
/-- A command finds an occupied slot of a started manager, or fails. -/
theorem wp_commandEntry {channelId : Bytes}
    {post : Except GwError (Fin gwMaxChannels) → GwChannelManager → Prop}
    (h : At stages view manager)
    (hfound : ∀ slot after, view.started = true → (view.placed slot).isSome →
      At stages view after → post (.ok slot) after)
    (hfailed : ∀ error after, At stages view after → post (.error error) after) :
    (commandEntry channelId).wp (managerSetting stoppable answers) post manager := by
  simp only [commandEntry, Section.wp_bind]
  refine wp_read_at hnone h fun first hfirst => wp_read_at hnone hfirst fun second hsecond => ?_
  have hstarted : manager.started = view.started := by
    rw [← h.view]
    rfl
  by_cases hunavailable : (!manager.started || decide (first.stopSignal ≠ 0)) = true
  · rw [if_pos hunavailable]
    exact hfailed _ second hsecond
  · rw [if_neg hunavailable]
    simp only [Section.wp_bind]
    refine wp_read_at hnone hsecond fun third hthird => ?_
    cases hentry : findEntry second channelId with
    | none => exact hfailed _ third hthird
    | some slot =>
      have hoccupied := List.find?_some hentry
      rw [Bool.and_eq_true, hsecond.occupied slot] at hoccupied
      refine hfound slot third ?_ hoccupied.1 hthird
      rw [← hstarted]
      cases hcase : manager.started with
      | true => rfl
      | false => simp [hcase] at hunavailable

include hnone in
/-- The command that starts a channel joins a thread that has finished by itself, and
starts a new one only from a free slot. -/
theorem wp_gwChannelManagerStartChannel {channelId : Bytes}
    {post : Except GwError Unit → GwChannelManager → Prop} (h : Resting stages view manager)
    (hpost : ∀ status after, Rests view after → post status after) :
    (gwChannelManagerStartChannel channelId).wp (managerSetting stoppable answers) post manager := by
  simp only [gwChannelManagerStartChannel, Section.wp_bind]
  refine wp_commandEntry hnone h.assertion (fun slot _ hstarted hplaced h' => ?_)
    fun error after h' => hpost _ after ⟨stages, h', h.rest, h.idle⟩
  -- from a slot whose finished thread, if any, has been joined
  have hstart : ∀ {stages : Fin gwMaxChannels → SlotStage} {manager : GwChannelManager},
      At stages view manager → (∀ slot, stages slot = .free ∨ stages slot = .held) →
      (readEntry slot (·.threadStarted)).wp (managerSetting stoppable answers)
        (fun started after =>
          (if started = true then
            pure (.error (gwErrorSet .errConflict
              (ascii "channel '" ++ channelId ++ ascii "' is already active")))
          else do
            let state ← readEntry slot (·.snapshot.state)
            if state ≠ .stopped ∧ state ≠ .failed then
              pure (.error (gwErrorSet .errConflict
                (ascii "channel '" ++ channelId ++ ascii "' cannot be started from " ++
                  gwChannelStateString state)))
            else startEntry slot : Lifecycle (Except GwError Unit)).wp
              (managerSetting stoppable answers) post after) manager := by
    intro stages manager h' hrest
    refine wp_readStarted hnone h' (hrest slot) fun after hafter => ?_
    rcases hrest slot with hfree | hheld
    · simp only [hfree, reduceCtorEq, decide_false, Bool.false_eq_true, if_false, Section.wp_bind]
      refine wp_read_at hnone hafter fun after hafter => ?_
      split
      · exact hpost _ after (rests_started hstarted hafter hrest)
      · exact wp_startEntry hnone hafter hfree hplaced
          (fun _ h' => hpost _ _ (rests_started hstarted h' (resting_update hrest (Or.inr rfl))))
          fun _ _ _ _ h' => hpost _ _ (rests_started hstarted h' hrest)
    · simp only [hheld, decide_true, if_true]
      exact hpost _ after (rests_started hstarted hafter hrest)
  simp only [Section.wp_bind]
  refine wp_readStarted hnone h' (h.rest slot) fun _ h' => wp_read_at hnone h' fun _ h' => ?_
  refine wp_runWhen (fun hreap => ?_) fun _ => hstart h' h.rest
  have hheld : stages slot = .held := of_decide_eq_true (Bool.and_eq_true_iff.mp hreap).1
  exact wp_reapEntry hnone h' hheld fun _ h' => hstart h' (resting_update h.rest (Or.inl rfl))

include hnone in
/-- The command that stops a channel joins its thread, asked to stop or finished. -/
theorem wp_gwChannelManagerStopChannel {channelId : Bytes}
    {post : Except GwError Unit → GwChannelManager → Prop} (h : Resting stages view manager)
    (hpost : ∀ status after, Rests view after → post status after) :
    (gwChannelManagerStopChannel channelId).wp (managerSetting stoppable answers) post manager := by
  simp only [gwChannelManagerStopChannel, Section.wp_bind]
  refine wp_commandEntry hnone h.assertion (fun slot _ hstarted _ h' => ?_)
    fun error after h' => hpost _ after ⟨stages, h', h.rest, h.idle⟩
  have hfreed : ∀ {after}, At (Function.update stages slot .free) view after → Rests view after :=
    fun h' => rests_started hstarted h' (resting_update h.rest (Or.inl rfl))
  simp only [Section.wp_bind]
  refine wp_readStarted hnone h' (h.rest slot) fun _ h' => wp_read_at hnone h' fun after h' => ?_
  split
  · simp only [Section.wp_bind]
    refine wp_runWhen (fun hheld => ?_) fun _ => hpost _ after ⟨stages, h', h.rest, h.idle⟩
    exact wp_reapEntry hnone h' (of_decide_eq_true hheld) fun _ h' => hpost _ _ (hfreed h')
  · simp only [Section.wp_bind]
    exact wp_stopEntry hnone h' (h.rest slot) fun _ h' => hpost _ _ (hfreed h')

include hnone in
/-- A restart is a stop and a start under one lock, so nobody sees the slot between them. -/
theorem wp_gwChannelManagerRestartChannel {channelId : Bytes}
    {post : Except GwError Unit → GwChannelManager → Prop} (h : Resting stages view manager)
    (hpost : ∀ status after, Rests view after → post status after) :
    (gwChannelManagerRestartChannel channelId).wp (managerSetting stoppable answers) post manager := by
  simp only [gwChannelManagerRestartChannel, Section.wp_bind]
  refine wp_commandEntry hnone h.assertion (fun slot _ hstarted hplaced h' => ?_)
    fun error after h' => hpost _ after ⟨stages, h', h.rest, h.idle⟩
  have hrest : ∀ other, Function.update stages slot .free other = .free ∨
      Function.update stages slot .free other = .held := resting_update h.rest (Or.inl rfl)
  simp only [Section.wp_bind]
  refine wp_stopEntry hnone h' (h.rest slot) fun _ h' => ?_
  refine wp_startEntry hnone h' (Function.update_self ..) hplaced (fun _ h' => ?_)
    fun _ _ _ _ h' => hpost _ _ (rests_started hstarted h' hrest)
  exact hpost _ _ (rests_started hstarted h' (resting_update hrest (Or.inr rfl)))

include hnone in
/-- The wait keeps a manager that was never started free of threads. -/
theorem wp_gwChannelManagerWait {post : Int → GwChannelManager → Prop}
    (h : Resting stages view manager)
    (hpost : ∀ result after, Rests view after → post result after) :
    gwChannelManagerWait.wp (managerSetting stoppable answers) post manager := by
  simp only [gwChannelManagerWait, Section.wp_bind]
  refine wp_write_keep hnone h.assertion (fun _ => ⟨rfl, rfl, rfl⟩) fun _ h' => ?_
  refine wp_waitEntries hnone h' h.rest fun stages' _ hrest hfree h' => ?_
  refine wp_write_keep hnone h' (fun _ => ⟨rfl, rfl, rfl⟩) fun _ h' => ?_
  refine wp_read_at hnone h' fun after h' => hpost _ after ⟨stages', h', hrest, ?_⟩
  exact fun hnot slot => hfree slot (h.idle hnot slot)

end Sections

end LearnApue.Gateway
