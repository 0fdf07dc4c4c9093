import LearnApue.Gateway.ManagerFrame
import LearnApue.Gateway.Registry

set_option autoImplicit false

/-!
# Gateway: what a single act of the lock's holder can do

A property of sections that sequences keep is one of every call as soon as it is one
of the pieces that the calls are put together from (`SectionClass`).  So every act of
every section changes at most the slots by `SetupAct`: it runs or stops a thread,
installs an enabled channel of an accepted configuration, or releases the slot.  The
caller's options never change, and only the start asks the manager to stop.
-/

namespace LearnApue.Gateway

open LearnApue.Foundation

/-- What an act does to a slot. -/
inductive SetupAct (options : GwSupervisorOptions) (entry : GwChannelEntry) :
    GwChannelEntry → Prop
  | run {after : GwChannelEntry} (act : RunAct entry after) : SetupAct options entry after
  | configure {channel : GwChannelConfig} {config : GwConfig}
      (accepted : gwConfigValidate config = .ok ()) (mem : channel ∈ config.channels)
      (enabled : channel.enabled = true) :
      SetupAct options entry (configureEntry options channel config entry)
  | release : SetupAct options entry { entry with occupied := false }

/-- An act of the lock's holder; `stops` says whether it may ask the manager to stop. -/
structure LifecycleAct (stops : Prop) (before after : GwChannelManager) : Prop where
  slots : ∀ slot, after.entries slot = before.entries slot ∨
    SetupAct before.callerOptions (before.entries slot) (after.entries slot)
  callerOptions : after.callerOptions = before.callerOptions
  stopSignal : stops ∨ after.stopSignal = before.stopSignal

section Acts

variable {stops : Prop} {slot : Fin gwMaxChannels}

theorem lifecycleAct_same {before after : GwChannelManager}
    (hentries : after.entries = before.entries)
    (hoptions : after.callerOptions = before.callerOptions)
    (hstop : stops ∨ after.stopSignal = before.stopSignal) : LifecycleAct stops before after :=
  ⟨fun slot => Or.inl (by rw [hentries]), hoptions, hstop⟩

theorem lifecycleAct_refl (manager : GwChannelManager) : LifecycleAct stops manager manager :=
  lifecycleAct_same rfl rfl (Or.inr rfl)

/-- What a section does to one slot is one of the acts of the lock's holder. -/
theorem OnSlot.lifecycleAct {before after : GwChannelManager}
    (h : OnSlot RunAct slot before after) : LifecycleAct stops before after := by
  refine ⟨fun other => ?_, h.callerOptions, Or.inr h.stopSignal⟩
  by_cases hsame : other = slot
  · subst hsame
    exact h.here.imp_right .run
  · exact Or.inl (h.others other hsame)

theorem lifecycleAct_setEntry {manager : GwChannelManager} {entry : GwChannelEntry}
    (h : SetupAct manager.callerOptions (manager.entries slot) entry) :
    LifecycleAct stops manager (manager.setEntry slot entry) := by
  refine ⟨fun other => ?_, rfl, Or.inr rfl⟩
  by_cases hsame : other = slot
  · subst hsame
    rw [setEntry_self]
    exact Or.inr h
  · exact Or.inl (setEntry_of_ne _ _ hsame)

/-- The sections of a slot act on it only, and so does what is built of them. -/
theorem acts_run {α : Type} {body : Lifecycle α} (h : body.Acts (OnSlot RunAct slot)) :
    body.Acts (LifecycleAct stops) := h.mono fun _ _ => OnSlot.lifecycleAct

end Acts

/-! ## Properties of all sections -/

/-- A property of sections that sequences keep and reads have. -/
structure PlainClass (C : {α : Type} → Lifecycle α → Prop) : Prop where
  pure : ∀ {α : Type} (value : α), C (pure value)
  bind : ∀ {α β : Type} {first : Lifecycle α} {rest : α → Lifecycle β}, C first →
    (∀ value, C (rest value)) → C (first >>= rest)
  read : ∀ {α : Type} (f : GwChannelManager → α), C (.read f)

/-- One that the pieces on this slot have. -/
structure SlotClass (slot : Fin gwMaxChannels) (C : {α : Type} → Lifecycle α → Prop) : Prop
    extends PlainClass C where
  start : C (startEntry slot)
  stop : C (stopEntry slot)
  reap : C (reapEntry slot)

/-- A write that touches no slot, nor what the slots are configured with. -/
def LeavesSlots (f : GwChannelManager → GwChannelManager) : Prop :=
  ∀ manager, (f manager).entries = manager.entries ∧
    (f manager).callerOptions = manager.callerOptions ∧ (f manager).stopSignal = manager.stopSignal

/-- One that all pieces have, but the request to stop. -/
structure SectionClass (C : {α : Type} → Lifecycle α → Prop) : Prop extends PlainClass C where
  slots : ∀ slot, SlotClass slot C
  write : ∀ f, LeavesSlots f → C (.write f)
  createMetrics : C createMetricsThread
  release : ∀ slot, C (updateEntry slot fun entry => { entry with occupied := false })
  configure : ∀ (slot : Fin gwMaxChannels) {channel : GwChannelConfig} {config : GwConfig},
    gwConfigValidate config = .ok () → channel ∈ config.channels → channel.enabled = true →
    C (configureSlot slot channel config)

section Class

variable {C : {α : Type} → Lifecycle α → Prop} {slot : Fin gwMaxChannels}

theorem PlainClass.runWhen (hC : PlainClass C) (condition : Bool) {body : Lifecycle Unit}
    (h : C body) : C (runWhen condition body) := by
  cases condition with
  | true => exact h
  | false => exact hC.pure ()

/-- The search for the channel of a command only reads. -/
theorem PlainClass.commandEntry (hC : PlainClass C) (channelId : Bytes) :
    C (commandEntry channelId) := by
  refine hC.bind (hC.read _) fun started => ?_
  refine hC.bind (hC.read _) fun stopSignal => ?_
  split
  · exact hC.pure _
  · refine hC.bind (hC.read _) fun found => ?_
    cases found with
    | none => exact hC.pure _
    | some slot => exact hC.pure _

/-- What a command does once it has found its slot. -/
def CommandBody (channelId : Bytes) (body : Lifecycle (Except GwError Unit)) : Prop :=
  ∃ rest : Fin gwMaxChannels → Lifecycle (Except GwError Unit),
    (body = commandEntry channelId >>= fun found =>
      match found with
      | .error error => pure (.error error)
      | .ok slot => rest slot) ∧
    ∀ (slot : Fin gwMaxChannels) (C : {α : Type} → Lifecycle α → Prop),
      SlotClass slot C → C (rest slot)

/-- The three commands are their search, and a body that works on the slot it has found. -/
theorem gwChannelManagerStartChannel_body (channelId : Bytes) :
    CommandBody channelId (gwChannelManagerStartChannel channelId) := by
  refine ⟨_, rfl, fun slot C hC => ?_⟩
  refine hC.bind (hC.read _) fun started => ?_
  refine hC.bind (hC.read _) fun running => ?_
  refine hC.bind (hC.runWhen _ hC.reap) fun _ => ?_
  refine hC.bind (hC.read _) fun active => ?_
  cases active with
  | true => exact hC.pure _
  | false =>
    refine hC.bind (hC.read _) fun state => ?_
    split
    · exact hC.pure _
    · exact hC.start

theorem gwChannelManagerStopChannel_body (channelId : Bytes) :
    CommandBody channelId (gwChannelManagerStopChannel channelId) := by
  refine ⟨_, rfl, fun slot C hC => ?_⟩
  refine hC.bind (hC.read _) fun started => ?_
  refine hC.bind (hC.read _) fun running => ?_
  split
  · exact hC.bind (hC.runWhen _ hC.reap) fun _ => hC.pure _
  · exact hC.bind hC.stop fun _ => hC.pure _

theorem gwChannelManagerRestartChannel_body (channelId : Bytes) :
    CommandBody channelId (gwChannelManagerRestartChannel channelId) :=
  ⟨_, rfl, fun _ _ hC => hC.bind hC.stop fun _ => hC.start⟩

/-- A property of sections that the parts of a body have is one of the three commands. -/
theorem PlainClass.command (hC : PlainClass C) (hslots : ∀ slot, SlotClass slot C)
    {channelId : Bytes} {body : Lifecycle (Except GwError Unit)} (h : CommandBody channelId body) :
    C body := by
  obtain ⟨rest, rfl, hrest⟩ := h
  refine hC.bind (hC.commandEntry channelId) fun found => ?_
  cases found with
  | error error => exact hC.pure _
  | ok slot => exact hrest slot C (hslots slot)

/-- The property passes from the sections of one slot to the loops over the slots; the
induction is on the slots that are left. -/
theorem SectionClass.stopEntries (hC : SectionClass C) (list : List (Fin gwMaxChannels)) :
    C (stopEntries list) := by
  induction list with
  | nil => exact hC.pure _
  | cons slot rest ih => exact hC.bind (hC.slots slot).stop fun _ => ih

theorem SectionClass.startEntries (hC : SectionClass C) (list : List (Fin gwMaxChannels)) :
    C (startEntries list) := by
  induction list with
  | nil => exact hC.pure _
  | cons slot rest ih =>
    refine hC.bind (hC.read _) fun occupied => ?_
    cases occupied with
    | false => exact ih
    | true =>
      refine hC.bind (hC.slots slot).start fun status => ?_
      cases status with
      | error error => exact hC.pure _
      | ok value => exact ih

theorem SectionClass.start (hC : SectionClass C)
    (hstop : ∀ signal, C (gwChannelManagerRequestStop signal)) : C gwChannelManagerStart := by
  refine hC.bind (hC.read _) fun started => ?_
  cases started with
  | true => exact hC.pure _
  | false =>
    refine hC.bind (hC.write _ fun _ => ⟨rfl, rfl, rfl⟩) fun _ => ?_
    refine hC.bind (hC.startEntries _) fun status => ?_
    cases status with
    | error error =>
      refine hC.bind (hstop _) fun _ => ?_
      exact hC.bind (hC.stopEntries _) fun _ => hC.pure _
    | ok value =>
      refine hC.bind hC.createMetrics fun answer => ?_
      cases answer with
      | none => exact hC.bind (hC.write _ fun _ => ⟨rfl, rfl, rfl⟩) fun _ => hC.pure _
      | some errno =>
        refine hC.bind (hstop _) fun _ => ?_
        refine hC.bind (hC.stopEntries _) fun _ => ?_
        exact hC.bind (hC.write _ fun _ => ⟨rfl, rfl, rfl⟩) fun _ => hC.pure _

/-- The first loop of a reload: a slot is stopped, configured anew and started, or kept. -/
theorem SectionClass.reloadSlots (hC : SectionClass C) {candidate : GwConfig}
    (haccepted : gwConfigValidate candidate = .ok ()) (globalsEqual : Bool)
    (list : List (Fin gwMaxChannels)) (progress : ReloadProgress) :
    C (reloadSlots candidate globalsEqual list progress) := by
  induction list generalizing progress with
  | nil => exact hC.pure _
  | cons slot rest ih =>
    refine hC.bind (hC.read _) fun known => ?_
    obtain ⟨occupied, channel⟩ := known
    cases occupied with
    | false => exact ih progress
    | true =>
      simp only [Bool.not_true, Bool.false_eq_true, if_false]
      cases hfind : findEnabledChannel candidate channel.id.bytes with
      | none =>
        refine hC.bind (hC.slots slot).stop fun _ => ?_
        exact hC.bind (hC.release slot) fun _ => ih _
      | some replacement =>
        obtain ⟨hmem, henabled, -⟩ := findEnabledChannel_some hfind
        dsimp only
        split
        · exact ih _
        · refine hC.bind (hC.slots slot).stop fun _ => ?_
          refine hC.bind (hC.configure slot haccepted hmem henabled) fun _ => ?_
          exact hC.bind (hC.slots slot).start fun _ => ih _

/-- The second loop of a reload: a new channel takes a free slot, and gives it back when its
thread is not created. -/
theorem SectionClass.addChannels (hC : SectionClass C) {candidate : GwConfig}
    (haccepted : gwConfigValidate candidate = .ok ()) {channels : List GwChannelConfig}
    (hchannels : ∀ channel ∈ channels, channel ∈ candidate.channels) (progress : ReloadProgress) :
    C (addChannels candidate channels progress) := by
  induction channels generalizing progress with
  | nil => exact hC.pure _
  | cons channel rest ih =>
    have hrest : ∀ channel ∈ rest, channel ∈ candidate.channels :=
      fun other hother => hchannels other (List.mem_cons_of_mem _ hother)
    refine hC.bind (hC.read _) fun known => ?_
    by_cases hskip : (!channel.enabled || known.isSome) = true
    · rw [if_pos hskip]
      exact ih hrest progress
    · rw [if_neg hskip]
      have henabled : channel.enabled = true := by
        cases hcase : channel.enabled with
        | true => rfl
        | false => simp [hcase] at hskip
      refine hC.bind (hC.read _) fun free => ?_
      cases free with
      | none => exact hC.pure _
      | some slot =>
        refine hC.bind (hC.configure slot haccepted (hchannels channel List.mem_cons_self) henabled)
          fun _ => ?_
        exact hC.bind (hC.slots slot).start fun _ => ih hrest _

/-- A reload has every property that its two loops and its end have. -/
theorem SectionClass.reload (hC : SectionClass C) (candidate : GwConfig) :
    C (gwChannelManagerReload candidate) := by
  refine hC.bind (hC.read _) fun started => ?_
  refine hC.bind (hC.read _) fun stopSignal => ?_
  split
  · exact hC.pure _
  · cases haccepted : gwConfigValidate candidate with
    | error error => exact hC.pure _
    | ok value =>
      refine hC.bind (hC.read _) fun globalsEqual => ?_
      refine hC.bind (hC.reloadSlots haccepted _ _ _) fun reloaded => ?_
      refine hC.bind (hC.addChannels haccepted (fun _ h => h) _) fun progress => ?_
      exact hC.bind (hC.write _ fun _ => ⟨rfl, rfl, rfl⟩) fun _ => hC.pure _

theorem SectionClass.waitEntries (hC : SectionClass C) (list : List (Fin gwMaxChannels)) :
    C (waitEntries list) := by
  induction list with
  | nil => exact hC.pure _
  | cons slot rest ih =>
    refine hC.bind ?_ fun _ => ih
    refine hC.bind (hC.read _) fun occupied => ?_
    refine hC.bind (hC.read _) fun started => ?_
    refine hC.bind (hC.runWhen _ (hC.slots slot).reap) fun _ => ?_
    refine hC.bind (hC.read _) fun result => ?_
    exact hC.runWhen _ (hC.write _ fun _ => ⟨rfl, rfl, rfl⟩)

theorem SectionClass.wait (hC : SectionClass C) : C gwChannelManagerWait := by
  refine hC.bind (hC.write _ fun _ => ⟨rfl, rfl, rfl⟩) fun _ => ?_
  refine hC.bind (hC.waitEntries _) fun _ => ?_
  refine hC.bind (hC.write _ fun _ => ⟨rfl, rfl, rfl⟩) fun _ => ?_
  exact hC.read _

/-- Every call has the property. -/
theorem SectionClass.body (hC : SectionClass C)
    (hstop : ∀ signal, C (gwChannelManagerRequestStop signal)) (call : LifecycleCall) :
    C call.body := by
  cases call with
  | start => exact hC.bind (hC.start hstop) fun _ => hC.pure _
  | reload candidate => exact hC.bind (hC.reload candidate) fun _ => hC.pure _
  | startChannel channelId =>
    exact hC.bind (hC.command hC.slots (gwChannelManagerStartChannel_body channelId)) fun _ => hC.pure _
  | stopChannel channelId =>
    exact hC.bind (hC.command hC.slots (gwChannelManagerStopChannel_body channelId)) fun _ => hC.pure _
  | restartChannel channelId =>
    exact hC.bind (hC.command hC.slots (gwChannelManagerRestartChannel_body channelId)) fun _ => hC.pure _
  | wait => exact hC.bind hC.wait fun _ => hC.pure _

end Class

/-! ## The acts -/

section Acts

variable {stops : Prop} {slot : Fin gwMaxChannels}

/-- To act within a relation is such a property. -/
theorem plainClass_acts {R : GwChannelManager → GwChannelManager → Prop}
    (hrefl : ∀ manager, R manager manager) : PlainClass fun body => body.Acts R :=
  ⟨fun _ => trivial, fun hfirst hrest => Section.acts_bind hfirst hrest, Section.acts_read hrefl⟩

theorem slotClass_acts : SlotClass slot fun body => body.Acts (OnSlot RunAct slot) :=
  { plainClass_acts onSlot_refl with
    start := startEntry_acts
    stop := stopEntry_acts
    reap := reapEntry_acts }

theorem sectionClass_acts : SectionClass fun body => body.Acts (LifecycleAct stops) :=
  { plainClass_acts lifecycleAct_refl with
    slots := fun _ =>
      { plainClass_acts lifecycleAct_refl with
        start := acts_run startEntry_acts
        stop := acts_run stopEntry_acts
        reap := acts_run reapEntry_acts }
    write := by
      intro f hf
      apply Section.acts_write
      intro manager
      obtain ⟨hentries, hoptions, hstop⟩ := hf manager
      exact lifecycleAct_same hentries hoptions (Or.inr hstop)
    createMetrics := by
      refine ⟨?_, fun _ => trivial⟩
      intro manager answer result after heq
      rw [Option.some.injEq, Prod.mk.injEq] at heq
      exact heq.2 ▸ lifecycleAct_refl manager
    release := fun _ => Section.acts_write fun _ => lifecycleAct_setEntry .release
    configure := by
      intro slot channel config haccepted hmem henabled
      exact Section.acts_write fun _ => lifecycleAct_setEntry (.configure haccepted hmem henabled) }

/-- A reload is a sequence of acts on slots, with the new configuration at its end. -/
theorem gwChannelManagerReload_acts (candidate : GwConfig) :
    (gwChannelManagerReload candidate).Acts (LifecycleAct stops) :=
  sectionClass_acts.reload candidate

/-- Looking a channel up changes nothing. -/
theorem commandEntry_acts {R : GwChannelManager → GwChannelManager → Prop}
    (hrefl : ∀ manager, R manager manager) (channelId : Bytes) : (commandEntry channelId).Acts R :=
  (plainClass_acts hrefl).commandEntry channelId

/-- A command looks its channel up and then acts on that slot only. -/
def IsCommand (channelId : Bytes) (body : Lifecycle (Except GwError Unit)) : Prop :=
  ∃ rest : Fin gwMaxChannels → Lifecycle (Except GwError Unit),
    (body = commandEntry channelId >>= fun found =>
      match found with
      | .error error => pure (.error error)
      | .ok slot => rest slot) ∧
    ∀ slot, (rest slot).Acts (OnSlot RunAct slot)

/-- A body that runs behind the search is one of the three commands. -/
theorem CommandBody.isCommand {channelId : Bytes} {body : Lifecycle (Except GwError Unit)}
    (h : CommandBody channelId body) : IsCommand channelId body := by
  obtain ⟨rest, hbody, hrest⟩ := h
  exact ⟨rest, hbody, fun slot => hrest slot _ slotClass_acts⟩

/-- Every act of every call. -/
theorem LifecycleCall.body_acts (call : LifecycleCall) : call.body.Acts (LifecycleAct True) :=
  sectionClass_acts.body
    (fun _ => Section.acts_write fun _ => lifecycleAct_same rfl rfl (Or.inl trivial)) call

end Acts

end LearnApue.Gateway
