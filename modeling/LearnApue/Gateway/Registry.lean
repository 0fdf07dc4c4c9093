import LearnApue.Gateway.ChannelManager

set_option autoImplicit false

/-!
# Gateway: a reload as a function of the placed configurations

What a reload is for, without threads and locks: which slot runs which configuration
before and after, and the counts.  `reloadSlot` and `addEach` are the two loops on
that state; the manager's sections refine them.
-/

namespace LearnApue.Gateway

open LearnApue.Foundation

/-! ## The two loops -/

/-- Which slot runs which configuration. -/
abbrev Placement : Type := Fin gwMaxChannels → Option GwConfig

/-- The channel of a slot's configuration. -/
def runChannel (run : GwConfig) : GwChannelConfig := run.channels.headD channelInit

/-- A reload on its way. -/
structure Reloading where
  placed : Placement
  changes : GwChannelReloadSummary

/-- What becomes of a slot. -/
inductive SlotFate where
  | empty
  | removed
  | unchanged (run : GwConfig)
  | restarted (run : GwConfig)

/-- The fate of a slot, from what it runs. -/
def slotFate (candidate : GwConfig) (globalsEqual : Bool) : Option GwConfig → SlotFate
  | none => .empty
  | some run =>
      match findEnabledChannel candidate (runChannel run).id.bytes with
      | none => .removed
      | some replacement =>
          if globalsEqual && channelConfigEqual (runChannel run) replacement then .unchanged run
          else .restarted (runConfigOf replacement candidate)

/-- What the slot runs afterwards. -/
def SlotFate.run : SlotFate → Option GwConfig
  | .empty | .removed => none
  | .unchanged run | .restarted run => some run

/-- How the fate is counted. -/
def SlotFate.count (changes : GwChannelReloadSummary) : SlotFate → GwChannelReloadSummary
  | .empty => changes
  | .removed => { changes with removed := changes.removed + 1 }
  | .unchanged _ => { changes with unchanged := changes.unchanged + 1 }
  | .restarted _ => { changes with restarted := changes.restarted + 1 }

/-- The first loop's body. -/
def reloadSlot (candidate : GwConfig) (globalsEqual : Bool) (state : Reloading)
    (slot : Fin gwMaxChannels) : Reloading :=
  let fate := slotFate candidate globalsEqual (state.placed slot)
  ⟨Function.update state.placed slot fate.run, fate.count state.changes⟩

/-- The first slot that runs a channel with this id. -/
def placedAt (placed : Placement) (id : Bytes) : Option (Fin gwMaxChannels) :=
  slots.find? fun slot => (placed slot).any fun run => (runChannel run).id.bytes == id

/-- The first slot that runs nothing. -/
def freeSlot (placed : Placement) : Option (Fin gwMaxChannels) :=
  slots.find? fun slot => (placed slot).isNone

/-- The second loop, and whether it found no free slot. -/
def addEach (candidate : GwConfig) : List GwChannelConfig → Reloading → Reloading × Bool
  | [], state => (state, false)
  | channel :: rest, state =>
      if !channel.enabled || (placedAt state.placed channel.id.bytes).isSome then
        addEach candidate rest state
      else
        match freeSlot state.placed with
        | none => (state, true)
        | some slot =>
            addEach candidate rest
              ⟨Function.update state.placed slot (some (runConfigOf channel candidate)),
                { state.changes with added := state.changes.added + 1 }⟩

/-- The first loop, over all slots. -/
def reloadEach (candidate : GwConfig) (globalsEqual : Bool) (placed : Placement) : Reloading :=
  slots.foldl (reloadSlot candidate globalsEqual) ⟨placed, ⟨0, 0, 0, 0⟩⟩

/-- Both loops. -/
def reloadPlacement (candidate : GwConfig) (globalsEqual : Bool) (placed : Placement) :
    Reloading × Bool :=
  addEach candidate candidate.channels (reloadEach candidate globalsEqual placed)

/-! ## What the comparisons say -/

/-- The comparison covers every field of a channel. -/
theorem channelConfigEqual_iff {first second : GwChannelConfig} :
    channelConfigEqual first second = true ↔ first = second := by
  constructor
  · intro h
    simp only [channelConfigEqual, Bool.and_eq_true, beq_iff_eq, and_assoc] at h
    obtain ⟨henabled, hid, htype, hurl, htransport, hdecoder, hwidth, hheight, hencoder, hbitrate,
      hfps, hpath⟩ := h
    obtain ⟨id, enabled, ⟨type, url, transport⟩, ⟨decoder, width, height, encoder, bitrate, fps⟩,
      ⟨path⟩⟩ := first
    simp only at *
    rw [Text.ext_bytes hid, henabled, Text.ext_bytes htype, Text.ext_bytes hurl,
      Text.ext_bytes htransport, Text.ext_bytes hdecoder, hwidth, hheight, Text.ext_bytes hencoder,
      hbitrate, hfps, Text.ext_bytes hpath]
  · rintro rfl
    simp [channelConfigEqual]

theorem workerGlobalsEqual_iff {first second : GwConfig} :
    workerGlobalsEqual first second = true ↔
      first.mediamtx.publishBaseUrl = second.mediamtx.publishBaseUrl ∧
        first.defaults = second.defaults := by
  constructor
  · intro h
    simp only [workerGlobalsEqual, retryPolicyEqual, Bool.and_eq_true, beq_iff_eq, and_assoc] at h
    obtain ⟨hbase, hstartup, hprogress, hstable, hstop, hretries, hbackoff⟩ := h
    refine ⟨Text.ext_bytes hbase, ?_⟩
    obtain ⟨server, mediamtx, ⟨startup, progress, stable, stop, retries, backoff⟩, channels⟩ := first
    simp only at *
    rw [hstartup, hprogress, hstable, hstop, hretries, hbackoff]
  · rintro ⟨hbase, hdefaults⟩
    simp [workerGlobalsEqual, retryPolicyEqual, hbase, hdefaults]

/-- The channel found is an enabled one with the id. -/
theorem findEnabledChannel_some {config : GwConfig} {id : Bytes} {channel : GwChannelConfig}
    (h : findEnabledChannel config id = some channel) :
    channel ∈ config.channels ∧ channel.enabled = true ∧ channel.id.bytes = id := by
  have hfound := List.find?_some h
  rw [Bool.and_eq_true, beq_iff_eq] at hfound
  exact ⟨List.mem_of_find?_eq_some h, hfound.1, hfound.2⟩

/-- A slot's configuration runs a channel of a configuration as it stands there. -/
structure RunsChannel (config : GwConfig) (run : GwConfig) (channel : GwChannelConfig) : Prop where
  channel : runChannel run = channel
  base : run.mediamtx.publishBaseUrl = config.mediamtx.publishBaseUrl
  policy : run.defaults = config.defaults

theorem runConfigOf_runs (channel : GwChannelConfig) (config : GwConfig) :
    RunsChannel config (runConfigOf channel config) channel :=
  ⟨rfl, rfl, rfl⟩

/-! ## The invariant of a placement -/

/-- No two slots run channels with one id. -/
def DistinctIds (placed : Placement) : Prop :=
  ∀ slot other run run', placed slot = some run → placed other = some run' →
    (runChannel run).id = (runChannel run').id → slot = other

/-- The slots run enabled channels with the configuration's globals, each id once. -/
structure PlacementOk (config : GwConfig) (placed : Placement) : Prop where
  enabled : ∀ slot run, placed slot = some run → (runChannel run).enabled = true
  globals : ∀ slot run, placed slot = some run → RunsChannel config run (runChannel run)
  distinct : DistinctIds placed

/-- Every slot runs an enabled channel of the candidate. -/
def PlacedFrom (candidate : GwConfig) (placed : Placement) : Prop :=
  ∀ slot run, placed slot = some run →
    ∃ channel ∈ candidate.channels, channel.enabled = true ∧ RunsChannel candidate run channel

theorem PlacedFrom.ok {candidate : GwConfig} {placed : Placement} (h : PlacedFrom candidate placed)
    (hdistinct : DistinctIds placed) : PlacementOk candidate placed := by
  refine ⟨?_, ?_, hdistinct⟩
  · intro slot run hrun
    obtain ⟨channel, -, henabled, hruns⟩ := h slot run hrun
    rw [hruns.channel]
    exact henabled
  · intro slot run hrun
    obtain ⟨channel, -, -, hruns⟩ := h slot run hrun
    rw [hruns.channel]
    exact hruns

/-- The slots that run something. -/
def occupiedSlots (placed : Placement) : Finset (Fin gwMaxChannels) :=
  Finset.univ.filter fun slot => (placed slot).isSome

theorem countP_slots (p : Fin gwMaxChannels → Bool) :
    slots.countP p = (Finset.univ.filter fun slot => p slot = true).card := by
  have hnodup : (slots.filter p).Nodup := (List.nodup_finRange _).filter p
  rw [List.countP_eq_length_filter, ← List.toFinset_card_of_nodup hnodup]
  congr 1
  ext slot
  simp [slots]

section First

variable {config candidate : GwConfig} {globalsEqual : Bool}

/-- Every slot that ran something is counted once. -/
theorem slotFate_count_all (candidate : GwConfig) (globalsEqual : Bool) (run : Option GwConfig)
    (changes : GwChannelReloadSummary) :
    let after := (slotFate candidate globalsEqual run).count changes
    after.unchanged + after.restarted + after.removed =
      changes.unchanged + changes.restarted + changes.removed + if run.isSome then 1 else 0 := by
  cases run with
  | none => rfl
  | some run =>
    simp only [slotFate, Option.isSome_some, if_true]
    split
    · simp only [SlotFate.count]
      omega
    · split
      · simp only [SlotFate.count]
        omega
      · simp only [SlotFate.count]
        omega

/-- A kept slot is unchanged or restarted. -/
theorem SlotFate.count_kept (fate : SlotFate) (changes : GwChannelReloadSummary) :
    (fate.count changes).unchanged + (fate.count changes).restarted =
      changes.unchanged + changes.restarted + if fate.run.isSome then 1 else 0 := by
  cases fate with
  | empty | removed => rfl
  | unchanged run | restarted run =>
    simp only [SlotFate.count, SlotFate.run, Option.isSome_some, if_true]
    omega

/-- The first loop decides each slot's fate by itself. -/
theorem reloadSlot_each {list : List (Fin gwMaxChannels)} (hnodup : list.Nodup)
    (state : Reloading) :
    let after := list.foldl (reloadSlot candidate globalsEqual) state
    (∀ slot, after.placed slot =
        if slot ∈ list then (slotFate candidate globalsEqual (state.placed slot)).run
        else state.placed slot) ∧
      after.changes.added = state.changes.added ∧
      after.changes.unchanged + after.changes.restarted + after.changes.removed =
        state.changes.unchanged + state.changes.restarted + state.changes.removed +
          list.countP (fun slot => (state.placed slot).isSome) ∧
      after.changes.unchanged + after.changes.restarted =
        state.changes.unchanged + state.changes.restarted +
          list.countP fun slot =>
            (slotFate candidate globalsEqual (state.placed slot)).run.isSome := by
  induction list generalizing state with
  | nil => simp
  | cons head rest ih =>
    obtain ⟨hnotin, hnodup⟩ := List.nodup_cons.mp hnodup
    obtain ⟨hplaced, hadded, hall, hkept⟩ :=
      ih hnodup (reloadSlot candidate globalsEqual state head)
    have hother : ∀ slot ∈ rest,
        (reloadSlot candidate globalsEqual state head).placed slot = state.placed slot := by
      intro slot hslot
      exact Function.update_of_ne (fun heq : slot = head => hnotin (heq ▸ hslot)) ..
    have hcountAll : rest.countP (fun slot =>
        ((reloadSlot candidate globalsEqual state head).placed slot).isSome) =
          rest.countP fun slot => (state.placed slot).isSome :=
      List.countP_congr fun slot hslot => by rw [hother slot hslot]
    have hcountKept : rest.countP (fun slot => (slotFate candidate globalsEqual
        ((reloadSlot candidate globalsEqual state head).placed slot)).run.isSome) =
          rest.countP fun slot =>
            (slotFate candidate globalsEqual (state.placed slot)).run.isSome :=
      List.countP_congr fun slot hslot => by rw [hother slot hslot]
    rw [hcountAll] at hall
    rw [hcountKept] at hkept
    have hfate : (reloadSlot candidate globalsEqual state head).changes =
        (slotFate candidate globalsEqual (state.placed head)).count state.changes := rfl
    rw [hfate] at hadded hall hkept
    simp only [List.foldl_cons]
    refine ⟨?_, ?_, ?_, ?_⟩
    · intro slot
      rw [hplaced slot]
      by_cases hsame : slot = head
      · subst hsame
        rw [if_neg hnotin, if_pos List.mem_cons_self]
        exact Function.update_self ..
      · have hkeeps : (reloadSlot candidate globalsEqual state head).placed slot =
            state.placed slot := Function.update_of_ne hsame ..
        simp only [hkeeps, List.mem_cons, hsame, false_or]
    · rw [hadded]
      cases slotFate candidate globalsEqual (state.placed head) <;> rfl
    · rw [hall, List.countP_cons, slotFate_count_all]
      omega
    · rw [hkept, List.countP_cons, SlotFate.count_kept]
      omega

/-- What a kept slot runs is an enabled channel of the candidate, with the same id. -/
theorem slotFate_run {run after : GwConfig}
    (hruns : RunsChannel config run (runChannel run))
    (h : (slotFate candidate (workerGlobalsEqual config candidate) (some run)).run = some after) :
    ∃ channel ∈ candidate.channels, channel.enabled = true ∧ RunsChannel candidate after channel ∧
      channel.id = (runChannel run).id := by
  unfold slotFate at h
  dsimp only at h
  cases hfind : findEnabledChannel candidate (runChannel run).id.bytes with
  | none =>
    rw [hfind] at h
    cases h
  | some replacement =>
    obtain ⟨hmem, henabled, hid⟩ := findEnabledChannel_some hfind
    rw [hfind] at h
    refine ⟨replacement, hmem, henabled, ?_, Text.ext_bytes hid⟩
    by_cases hsame : (workerGlobalsEqual config candidate &&
        channelConfigEqual (runChannel run) replacement) = true
    · simp only [hsame, if_true, SlotFate.run, Option.some.injEq] at h
      obtain ⟨hglobals, hchannel⟩ := Bool.and_eq_true_iff.mp hsame
      obtain ⟨hbase, hpolicy⟩ := workerGlobalsEqual_iff.mp hglobals
      rw [← h]
      exact ⟨channelConfigEqual_iff.mp hchannel, hruns.base.trans hbase,
        hruns.policy.trans hpolicy⟩
    · simp only [hsame, SlotFate.run] at h
      rw [← Option.some.inj h]
      exact runConfigOf_runs replacement candidate

end First

section Second

variable {candidate : GwConfig}

theorem placedAt_none {placed : Placement} {id : Bytes} (h : ¬ (placedAt placed id).isSome) :
    ∀ slot run, placed slot = some run → (runChannel run).id.bytes ≠ id := by
  intro slot run hrun heq
  refine h ?_
  rw [placedAt, List.find?_isSome]
  exact ⟨slot, List.mem_finRange slot, by simp [hrun, heq]⟩

theorem placedAt_some {placed : Placement} {id : Bytes} (h : (placedAt placed id).isSome) :
    ∃ slot run, placed slot = some run ∧ (runChannel run).id.bytes = id := by
  rw [placedAt, List.find?_isSome] at h
  obtain ⟨slot, -, hslot⟩ := h
  rw [Option.any_eq_true] at hslot
  obtain ⟨run, hrun, hid⟩ := hslot
  exact ⟨slot, run, hrun, beq_iff_eq.mp hid⟩

theorem freeSlot_none {placed : Placement} (h : freeSlot placed = none)
    (slot : Fin gwMaxChannels) : ∃ run, placed slot = some run := by
  have hslot := List.find?_eq_none.mp h slot (List.mem_finRange slot)
  cases hrun : placed slot with
  | none => simp [hrun] at hslot
  | some run => exact ⟨run, rfl⟩

theorem freeSlot_some {placed : Placement} {slot : Fin gwMaxChannels}
    (h : freeSlot placed = some slot) : placed slot = none := by
  have hslot := List.find?_some h
  simpa using hslot

/-- A channel that no slot runs finds a free slot: there are as many slots as
channels. -/
theorem freeSlot_isSome {placed : Placement} (hfrom : PlacedFrom candidate placed)
    (hdistinct : DistinctIds placed) (hfits : candidate.channels.length ≤ gwMaxChannels)
    {channel : GwChannelConfig} (hmem : channel ∈ candidate.channels)
    (hnew : ∀ slot run, placed slot = some run → (runChannel run).id ≠ channel.id) :
    freeSlot placed ≠ none := by
  intro hfull
  choose run hrun using freeSlot_none hfull
  let ids := (candidate.channels.map fun channel => channel.id).toFinset
  have hmaps : ∀ slot ∈ (Finset.univ : Finset (Fin gwMaxChannels)),
      (runChannel (run slot)).id ∈ ids.erase channel.id := by
    intro slot _
    obtain ⟨source, hsource, -, hruns⟩ := hfrom slot (run slot) (hrun slot)
    refine Finset.mem_erase.mpr ⟨hnew slot _ (hrun slot), ?_⟩
    rw [hruns.channel]
    exact List.mem_toFinset.mpr (List.mem_map_of_mem hsource)
  have hinjective : Set.InjOn (fun slot => (runChannel (run slot)).id)
      (Finset.univ : Finset (Fin gwMaxChannels)) := by
    intro slot _ other _ heq
    exact hdistinct slot other _ _ (hrun slot) (hrun other) heq
  have hcard := Finset.card_le_card_of_injOn _ hmaps hinjective
  have hids : ids.card ≤ candidate.channels.length :=
    (List.toFinset_card_le _).trans (List.length_map ..).le
  have hin : channel.id ∈ ids := List.mem_toFinset.mpr (List.mem_map_of_mem hmem)
  rw [Finset.card_erase_of_mem hin, Finset.card_univ, Fintype.card_fin] at hcard
  have hpos : 0 < ids.card := Finset.card_pos.mpr ⟨_, hin⟩
  omega

/-- What the second loop leaves. -/
structure Added (candidate : GwConfig) (channels : List GwChannelConfig) (state : Reloading)
    (result : Reloading × Bool) : Prop where
  placedFrom : PlacedFrom candidate result.1.placed
  distinct : DistinctIds result.1.placed
  kept : ∀ slot run, state.placed slot = some run → result.1.placed slot = some run
  covers : result.2 = false → ∀ channel ∈ channels, channel.enabled = true →
    ∃ slot run, result.1.placed slot = some run ∧ (runChannel run).id = channel.id
  counted : result.1.changes.added + (occupiedSlots state.placed).card =
    state.changes.added + (occupiedSlots result.1.placed).card
  others : result.1.changes.unchanged = state.changes.unchanged ∧
    result.1.changes.restarted = state.changes.restarted ∧
    result.1.changes.removed = state.changes.removed
  fits : candidate.channels.length ≤ gwMaxChannels → result.2 = false

/-- A channel is placed in a free slot. -/
theorem place_keeps {state : Reloading} {slot : Fin gwMaxChannels} {channel : GwChannelConfig}
    (hfrom : PlacedFrom candidate state.placed) (hdistinct : DistinctIds state.placed)
    (hmem : channel ∈ candidate.channels) (henabled : channel.enabled = true)
    (hnew : ∀ slot run, state.placed slot = some run → (runChannel run).id ≠ channel.id) :
    PlacedFrom candidate
        (Function.update state.placed slot (some (runConfigOf channel candidate))) ∧
      DistinctIds (Function.update state.placed slot (some (runConfigOf channel candidate))) := by
  constructor
  · intro other run hrun
    by_cases hsame : other = slot
    · subst hsame
      rw [Function.update_self, Option.some.injEq] at hrun
      exact ⟨channel, hmem, henabled, hrun ▸ runConfigOf_runs channel candidate⟩
    · rw [Function.update_of_ne hsame] at hrun
      exact hfrom other run hrun
  · intro first second run run' hrun hrun' hid
    by_cases hfirst : first = slot
    · by_cases hsecond : second = slot
      · rw [hfirst, hsecond]
      · rw [hfirst, Function.update_self, Option.some.injEq] at hrun
        rw [Function.update_of_ne hsecond] at hrun'
        exact absurd (hid.symm.trans (hrun ▸ rfl)) (hnew second run' hrun')
    · rw [Function.update_of_ne hfirst] at hrun
      by_cases hsecond : second = slot
      · rw [hsecond, Function.update_self, Option.some.injEq] at hrun'
        exact absurd (hid.trans (hrun' ▸ rfl)) (hnew first run hrun)
      · rw [Function.update_of_ne hsecond] at hrun'
        exact hdistinct first second run run' hrun hrun' hid

theorem addEach_added {channels : List GwChannelConfig}
    (hchannels : ∀ channel ∈ channels, channel ∈ candidate.channels) {state : Reloading}
    (hfrom : PlacedFrom candidate state.placed) (hdistinct : DistinctIds state.placed) :
    Added candidate channels state (addEach candidate channels state) := by
  induction channels generalizing state with
  | nil =>
    exact ⟨hfrom, hdistinct, fun _ _ h => h, by simp, rfl, ⟨rfl, rfl, rfl⟩, fun _ => rfl⟩
  | cons channel rest ih =>
    have hmem := hchannels channel List.mem_cons_self
    have hrest : ∀ channel ∈ rest, channel ∈ candidate.channels :=
      fun other hother => hchannels other (List.mem_cons_of_mem _ hother)
    rw [addEach]
    by_cases hskip : (!channel.enabled || (placedAt state.placed channel.id.bytes).isSome) = true
    · rw [if_pos hskip]
      have hadded := ih hrest hfrom hdistinct
      refine ⟨hadded.placedFrom, hadded.distinct, hadded.kept, ?_, hadded.counted, hadded.others,
        hadded.fits⟩
      intro hroom other hother henabled
      rcases List.mem_cons.mp hother with rfl | hlater
      · rw [henabled, Bool.not_true, Bool.false_or] at hskip
        obtain ⟨slot, run, hrun, hid⟩ := placedAt_some hskip
        exact ⟨slot, run, hadded.kept slot run hrun, Text.ext_bytes hid⟩
      · exact hadded.covers hroom other hlater henabled
    · rw [if_neg hskip]
      simp only [Bool.or_eq_true, not_or, Bool.not_eq_true', Bool.not_eq_false] at hskip
      obtain ⟨henabled, hunplaced⟩ := hskip
      have hnew : ∀ slot run, state.placed slot = some run → (runChannel run).id ≠ channel.id :=
        fun slot run hrun heq => placedAt_none hunplaced slot run hrun (by rw [heq])
      cases hfree : freeSlot state.placed with
      | none =>
        refine ⟨hfrom, hdistinct, fun _ _ h => h, by simp, rfl, ⟨rfl, rfl, rfl⟩, fun hfits => ?_⟩
        exact absurd hfree (freeSlot_isSome hfrom hdistinct hfits hmem hnew)
      | some slot =>
        have hnone := freeSlot_some hfree
        obtain ⟨hfrom', hdistinct'⟩ := @place_keeps candidate state slot channel hfrom hdistinct
          hmem henabled hnew
        have hadded := @ih hrest ⟨Function.update state.placed slot
          (some (runConfigOf channel candidate)),
            { state.changes with added := state.changes.added + 1 }⟩ hfrom' hdistinct'
        have hoccupied : occupiedSlots (Function.update state.placed slot
            (some (runConfigOf channel candidate))) = insert slot (occupiedSlots state.placed) := by
          ext other
          by_cases hsame : other = slot
          · subst hsame
            simp [occupiedSlots]
          · simp [occupiedSlots, hsame]
        have hnotin : slot ∉ occupiedSlots state.placed := by simp [occupiedSlots, hnone]
        dsimp only
        refine ⟨hadded.placedFrom, hadded.distinct, ?_, ?_, ?_, hadded.others, hadded.fits⟩
        · intro other run hrun
          refine hadded.kept other run ?_
          have hne : other ≠ slot := by
            rintro rfl
            rw [hnone] at hrun
            cases hrun
          exact (Function.update_of_ne hne ..).trans hrun
        · intro hroom other hother henabled'
          rcases List.mem_cons.mp hother with rfl | hlater
          · exact ⟨slot, _, hadded.kept slot _ (Function.update_self ..), rfl⟩
          · exact hadded.covers hroom other hlater henabled'
        · have hcounted := hadded.counted
          simp only [hoccupied, Finset.card_insert_of_notMem hnotin] at hcounted
          omega

end Second

/-! ## Both loops -/

section Whole

variable {config candidate : GwConfig} {placed : Placement}

/-- What a reload leaves. -/
structure Reloaded (candidate : GwConfig) (before : Placement) (result : Reloading × Bool) :
    Prop where
  ok : PlacementOk candidate result.1.placed
  placedFrom : PlacedFrom candidate result.1.placed
  covers : result.2 = false → ∀ channel ∈ candidate.channels, channel.enabled = true →
    ∃ slot run, result.1.placed slot = some run ∧ (runChannel run).id = channel.id
  before : result.1.changes.unchanged + result.1.changes.restarted + result.1.changes.removed =
    (occupiedSlots before).card
  after : result.1.changes.unchanged + result.1.changes.restarted + result.1.changes.added =
    (occupiedSlots result.1.placed).card
  fits : candidate.channels.length ≤ gwMaxChannels → result.2 = false

theorem reloadEach_placed (candidate : GwConfig) (globalsEqual : Bool) (placed : Placement)
    (slot : Fin gwMaxChannels) :
    (reloadEach candidate globalsEqual placed).placed slot =
      (slotFate candidate globalsEqual (placed slot)).run := by
  obtain ⟨hplaced, -⟩ := @reloadSlot_each candidate globalsEqual slots (List.nodup_finRange _)
    ⟨placed, ⟨0, 0, 0, 0⟩⟩
  have hmem : slot ∈ slots := List.mem_finRange slot
  rw [reloadEach, hplaced slot, if_pos hmem]

/-- The counts of the first loop. -/
theorem reloadEach_changes (candidate : GwConfig) (globalsEqual : Bool) (placed : Placement) :
    let after := reloadEach candidate globalsEqual placed
    after.changes.added = 0 ∧
      after.changes.unchanged + after.changes.restarted + after.changes.removed =
        (occupiedSlots placed).card ∧
      after.changes.unchanged + after.changes.restarted = (occupiedSlots after.placed).card := by
  obtain ⟨-, hadded, hall, hkept⟩ := @reloadSlot_each candidate globalsEqual slots
    (List.nodup_finRange _) ⟨placed, ⟨0, 0, 0, 0⟩⟩
  have hoccupied : occupiedSlots (reloadEach candidate globalsEqual placed).placed =
      Finset.univ.filter fun slot =>
        (slotFate candidate globalsEqual (placed slot)).run.isSome = true := by
    ext slot
    rw [occupiedSlots, Finset.mem_filter_univ, Finset.mem_filter_univ, reloadEach_placed]
  rw [countP_slots] at hall hkept
  refine ⟨hadded, ?_, ?_⟩
  · rw [reloadEach, hall, Nat.add_zero, Nat.add_zero, Nat.zero_add]
    rfl
  · rw [hoccupied, reloadEach, hkept, Nat.add_zero, Nat.zero_add]

/-- The first loop keeps ids apart and leaves channels of the candidate. -/
theorem reloadEach_from (hok : PlacementOk config placed) :
    PlacedFrom candidate
        (reloadEach candidate (workerGlobalsEqual config candidate) placed).placed ∧
      DistinctIds (reloadEach candidate (workerGlobalsEqual config candidate) placed).placed := by
  -- every slot that runs something ran a channel with the same id before
  have hfate : ∀ slot after,
      (reloadEach candidate (workerGlobalsEqual config candidate) placed).placed slot =
        some after →
      ∃ run, placed slot = some run ∧ ∃ channel ∈ candidate.channels, channel.enabled = true ∧
        RunsChannel candidate after channel ∧ channel.id = (runChannel run).id := by
    intro slot after hafter
    rw [reloadEach_placed] at hafter
    cases hrun : placed slot with
    | none =>
      rw [hrun] at hafter
      cases hafter
    | some run =>
      rw [hrun] at hafter
      exact ⟨run, rfl, slotFate_run (hok.globals slot run hrun) hafter⟩
  constructor
  · intro slot after hafter
    obtain ⟨run, -, channel, hmem, henabled, hruns, -⟩ := hfate slot after hafter
    exact ⟨channel, hmem, henabled, hruns⟩
  · intro slot other after after' hafter hafter' hid
    obtain ⟨run, hrun, channel, -, -, hruns, hsame⟩ := hfate slot after hafter
    obtain ⟨run', hrun', channel', -, -, hruns', hsame'⟩ := hfate other after' hafter'
    rw [hruns.channel, hruns'.channel, hsame, hsame'] at hid
    exact hok.distinct slot other run run' hrun hrun' hid

theorem reloadPlacement_reloaded (hok : PlacementOk config placed) :
    Reloaded candidate placed
      (reloadPlacement candidate (workerGlobalsEqual config candidate) placed) := by
  obtain ⟨hfrom, hdistinct⟩ := @reloadEach_from config candidate placed hok
  obtain ⟨hadded, hall, hkept⟩ :=
    reloadEach_changes candidate (workerGlobalsEqual config candidate) placed
  have hsecond := @addEach_added candidate candidate.channels (fun _ h => h) _ hfrom hdistinct
  obtain ⟨hunchanged, hrestarted, hremoved⟩ := hsecond.others
  have hcounted := hsecond.counted
  unfold reloadPlacement
  refine ⟨hsecond.placedFrom.ok hsecond.distinct, hsecond.placedFrom, hsecond.covers, ?_, ?_,
    hsecond.fits⟩
  · rw [hunchanged, hrestarted, hremoved]
    exact hall
  · rw [hunchanged, hrestarted]
    omega

/-- When nothing was left over, as many slots run something as channels are enabled. -/
theorem Reloaded.card_enabled {before : Placement} {result : Reloading × Bool}
    (h : Reloaded candidate before result) (hroom : result.2 = false)
    (hids : candidate.channels.Pairwise fun earlier channel => earlier.id ≠ channel.id) :
    (occupiedSlots result.1.placed).card = candidate.channels.countP (·.enabled) := by
  let enabledIds := (candidate.channels.filter (·.enabled)).map (·.id)
  have hnodup : enabledIds.Nodup := by
    rw [List.Nodup, List.pairwise_map]
    exact hids.filter _
  have hcount : enabledIds.toFinset.card = candidate.channels.countP (·.enabled) := by
    rw [List.toFinset_card_of_nodup hnodup, List.length_map, List.countP_eq_length_filter]
  let idAt := fun slot => (runChannel ((result.1.placed slot).getD gwConfigInit)).id
  have hinjective : Set.InjOn idAt (occupiedSlots result.1.placed) := by
    intro slot hslot other hother heq
    obtain ⟨run, hrun⟩ := Option.isSome_iff_exists.mp (Finset.mem_filter_univ slot |>.mp hslot)
    obtain ⟨run', hrun'⟩ := Option.isSome_iff_exists.mp (Finset.mem_filter_univ other |>.mp hother)
    simp only [idAt, hrun, hrun', Option.getD_some] at heq
    exact h.ok.distinct slot other run run' hrun hrun' heq
  have himage : (occupiedSlots result.1.placed).image idAt = enabledIds.toFinset := by
    ext id
    simp only [Finset.mem_image, List.mem_toFinset, enabledIds, List.mem_map, List.mem_filter]
    constructor
    · rintro ⟨slot, hslot, rfl⟩
      obtain ⟨run, hrun⟩ := Option.isSome_iff_exists.mp (Finset.mem_filter_univ slot |>.mp hslot)
      obtain ⟨channel, hmem, henabled, hruns⟩ := h.placedFrom slot run hrun
      refine ⟨channel, ⟨hmem, henabled⟩, ?_⟩
      simp only [idAt, hrun, Option.getD_some, hruns.channel]
    · rintro ⟨channel, ⟨hmem, henabled⟩, rfl⟩
      obtain ⟨slot, run, hrun, hid⟩ := h.covers hroom channel hmem henabled
      refine ⟨slot, Finset.mem_filter_univ slot |>.mpr (by simp [hrun]), ?_⟩
      simp only [idAt, hrun, Option.getD_some]
      exact hid
  rw [← hcount, ← himage, Finset.card_image_of_injOn hinjective]

/-! ## A reload of what already runs -/

/-- Of the enabled channels of an accepted configuration, the one with an id is found. -/
theorem findEnabledChannel_mem
    (hids : candidate.channels.Pairwise fun earlier channel => earlier.id ≠ channel.id)
    {channel : GwChannelConfig} (hmem : channel ∈ candidate.channels)
    (henabled : channel.enabled = true) :
    findEnabledChannel candidate channel.id.bytes = some channel := by
  have hnodup : (candidate.channels.map (·.id)).Nodup := by
    rw [List.Nodup, List.pairwise_map]
    exact hids
  have hsome : (findEnabledChannel candidate channel.id.bytes).isSome := by
    rw [findEnabledChannel, List.find?_isSome]
    exact ⟨channel, hmem, by simp [henabled]⟩
  obtain ⟨found, hfound⟩ := Option.isSome_iff_exists.mp hsome
  obtain ⟨hfoundMem, -, hid⟩ := findEnabledChannel_some hfound
  rw [hfound, List.inj_on_of_nodup_map hnodup hfoundMem hmem (Text.ext_bytes hid)]

/-- The fate of a slot whose channel is enabled in the candidate. -/
theorem slotFate_enabled
    (hids : candidate.channels.Pairwise fun earlier channel => earlier.id ≠ channel.id)
    {channel : GwChannelConfig} (hmem : channel ∈ candidate.channels)
    (henabled : channel.enabled = true) {run : GwConfig} (hid : (runChannel run).id = channel.id)
    (globalsEqual : Bool) :
    slotFate candidate globalsEqual (some run) =
      if globalsEqual && channelConfigEqual (runChannel run) channel then .unchanged run
      else .restarted (runConfigOf channel candidate) := by
  simp only [slotFate, hid, findEnabledChannel_mem hids hmem henabled]

/-- A slot that runs a channel of the candidate as it stands there is kept. -/
theorem slotFate_same
    (hids : candidate.channels.Pairwise fun earlier channel => earlier.id ≠ channel.id)
    (hfrom : PlacedFrom candidate placed) {slot : Fin gwMaxChannels} {run : GwConfig}
    (hrun : placed slot = some run) :
    slotFate candidate (workerGlobalsEqual candidate candidate) (some run) = .unchanged run := by
  obtain ⟨channel, hmem, henabled, hruns⟩ := hfrom slot run hrun
  rw [slotFate_enabled hids hmem henabled (congrArg GwChannelConfig.id hruns.channel)]
  have hglobals : workerGlobalsEqual candidate candidate = true :=
    workerGlobalsEqual_iff.mpr ⟨rfl, rfl⟩
  have hchannel : channelConfigEqual (runChannel run) channel = true :=
    channelConfigEqual_iff.mpr hruns.channel
  rw [hglobals, hchannel, Bool.and_self, if_pos rfl]

/-- Nothing is left to add once every enabled channel runs. -/
theorem addEach_covered {channels : List GwChannelConfig} {state : Reloading}
    (hcovers : ∀ channel ∈ channels, channel.enabled = true →
      ∃ slot run, state.placed slot = some run ∧ (runChannel run).id = channel.id) :
    addEach candidate channels state = (state, false) := by
  induction channels with
  | nil => rfl
  | cons channel rest ih =>
    have hskip : (!channel.enabled || (placedAt state.placed channel.id.bytes).isSome) = true := by
      cases henabled : channel.enabled with
      | false => rfl
      | true =>
        obtain ⟨slot, run, hrun, hid⟩ := hcovers channel List.mem_cons_self henabled
        by_contra hnot
        exact placedAt_none (by simpa using hnot) slot run hrun (by rw [hid])
    rw [addEach, if_pos hskip]
    exact ih fun other hother => hcovers other (List.mem_cons_of_mem _ hother)

/-- The first loop only counts when every slot is kept. -/
theorem foldl_reloadSlot_same {globalsEqual : Bool}
    (hkept : ∀ slot run, placed slot = some run →
      slotFate candidate globalsEqual (some run) = .unchanged run)
    (list : List (Fin gwMaxChannels)) (changes : GwChannelReloadSummary) :
    list.foldl (reloadSlot candidate globalsEqual) ⟨placed, changes⟩ =
      ⟨placed, { changes with
        unchanged := changes.unchanged + list.countP fun slot => (placed slot).isSome }⟩ := by
  induction list generalizing changes with
  | nil => rfl
  | cons head rest ih =>
    have hhead : reloadSlot candidate globalsEqual ⟨placed, changes⟩ head =
        ⟨placed, { changes with
          unchanged := changes.unchanged + if (placed head).isSome then 1 else 0 }⟩ := by
      have hsame : ∀ run, placed head = run → Function.update placed head run = placed := by
        rintro run rfl
        exact Function.update_eq_self head placed
      cases hrun : placed head with
      | none =>
        simp only [reloadSlot, hrun, slotFate, SlotFate.run, SlotFate.count, hsame none hrun]
        rfl
      | some run =>
        simp only [reloadSlot, hrun, hkept head run hrun, SlotFate.run, SlotFate.count,
          hsame (some run) hrun]
        rfl
    rw [List.foldl_cons, hhead, ih, List.countP_cons]
    simp only [Nat.add_assoc, Nat.add_comm]

/-- A reload of what already runs changes nothing, and counts everything as unchanged. -/
theorem reloadPlacement_again
    (hids : candidate.channels.Pairwise fun earlier channel => earlier.id ≠ channel.id)
    (hfrom : PlacedFrom candidate placed)
    (hcovers : ∀ channel ∈ candidate.channels, channel.enabled = true →
      ∃ slot run, placed slot = some run ∧ (runChannel run).id = channel.id) :
    reloadPlacement candidate (workerGlobalsEqual candidate candidate) placed =
      (⟨placed, ⟨(occupiedSlots placed).card, 0, 0, 0⟩⟩, false) := by
  have heach : reloadEach candidate (workerGlobalsEqual candidate candidate) placed =
      ⟨placed, ⟨(occupiedSlots placed).card, 0, 0, 0⟩⟩ := by
    rw [reloadEach, foldl_reloadSlot_same (fun slot run => slotFate_same hids hfrom), countP_slots,
      Nat.zero_add]
    rfl
  rw [reloadPlacement, heach]
  exact addEach_covered hcovers

end Whole

end LearnApue.Gateway
