import LearnApue.Gateway.ChannelsBody
import LearnApue.Gateway.RestartCounts

set_option autoImplicit false
set_option maxRecDepth 2048

/-!
# Gateway: the metrics sampler (`process_metrics.c`, `channel_manager.c`)

The sampler thread runs beside the manager: it copies what it has to sample under the read
lock, reads `/proc` with no lock, and stores what it made of it under the write lock.
`MetricsWorld` puts it and its data beside the manager of `ChannelManager`, whose steps clear
`worker_metrics` where they configure a slot.

`reads` is history: every successful read of `/proc`, with the slot it was made for.  A pid
stands for one process, as long as no other process takes it over.  What `double` arithmetic
makes of a CPU figure is a parameter.
-/

namespace LearnApue.Gateway

open LearnApue.Foundation

/-! ## Trackers -/

/-- `gw_process_metrics`. -/
structure GwProcessMetrics where
  cpuTicks : Nat
  rssKib : Int
  fdCount : Nat
  deriving DecidableEq

/-- `gw_process_metrics_tracker`. -/
structure GwProcessMetricsTracker where
  pid : Int
  baselineValid : Bool
  previousCpuTicks : Nat
  previousTimeNs : Int
  deriving DecidableEq

/-- `gw_process_metrics_tracker_init`. -/
def gwProcessMetricsTrackerInit : GwProcessMetricsTracker := ⟨-1, false, 0, 0⟩

/-- The `cpu_percent` of some ticks, at some ticks a second, in some nanoseconds. -/
abbrev CpuFigure : Type := Nat → Int → Int → CDouble

/-- The baseline of a tracker is good for a sample. -/
def GwProcessMetricsTracker.sameBaseline (tracker : GwProcessMetricsTracker) (pid : Int)
    (metrics : GwProcessMetrics) (sampleTimeNs : Int) : Bool :=
  tracker.baselineValid && tracker.pid = pid && sampleTimeNs > tracker.previousTimeNs &&
    metrics.cpuTicks ≥ tracker.previousCpuTicks

/-- `gw_process_metrics_tracker_update`: the tracker and the snapshot. -/
def gwProcessMetricsTrackerUpdate (cpuFigure : CpuFigure) (tracker : GwProcessMetricsTracker)
    (pid : Int) (metrics : Option GwProcessMetrics) (sampleTimeNs clockTicksPerSecond : Int) :
    GwProcessMetricsTracker × GwProcessMetricsSnapshot :=
  let unavailable : GwProcessMetricsSnapshot := ⟨pid, false, false, .zero, 0, 0⟩
  match metrics with
  | none => (gwProcessMetricsTrackerInit, unavailable)
  | some metrics =>
      if pid ≤ 0 ∨ sampleTimeNs ≤ 0 ∨ clockTicksPerSecond ≤ 0 then
        (gwProcessMetricsTrackerInit, unavailable)
      else
        let same := tracker.sameBaseline pid metrics sampleTimeNs
        let cpuPercent :=
          if same then
            cpuFigure (metrics.cpuTicks - tracker.previousCpuTicks) clockTicksPerSecond
              (sampleTimeNs - tracker.previousTimeNs)
          else .zero
        (⟨pid, true, metrics.cpuTicks, sampleTimeNs⟩,
          ⟨pid, true, same, cpuPercent, metrics.rssKib, metrics.fdCount⟩)

/-! ## The sampler -/

/-- `gw_metrics_target`. -/
structure GwMetricsTarget where
  occupied : Bool
  generation : Nat
  processKind : GwChannelProcessKind
  processPid : Int
  deriving DecidableEq

/-- What the sampler copies of a slot. -/
def GwChannelEntry.metricsTarget (entry : GwChannelEntry) : GwMetricsTarget :=
  ⟨entry.occupied, entry.generation, entry.snapshot.processKind, entry.snapshot.processPid⟩

/-- The pid that is sampled. -/
def GwMetricsTarget.pid (target : GwMetricsTarget) : Int :=
  if target.occupied ∧ target.processKind = .worker ∧ target.processPid > 0 then target.processPid
  else -1

/-- Where the sampler is. -/
inductive SamplerPhase where
  | notStarted
  /-- at the head of its loop -/
  | waiting
  /-- before these slots of a pass -/
  | sampling (targets : Fin gwMaxChannels → GwMetricsTarget) (rest : List (Fin gwMaxChannels))
  /-- before the write lock, with what it made of the slot -/
  | publishing (targets : Fin gwMaxChannels → GwMetricsTarget) (slot : Fin gwMaxChannels)
      (rest : List (Fin gwMaxChannels)) (sampled : GwProcessMetricsSnapshot)
  | over

/-- A successful `gw_process_metrics_read`, with the slot it was made for and its time. -/
structure MetricsRead where
  slot : Fin gwMaxChannels
  pid : Int
  metrics : GwProcessMetrics
  timeNs : Int

/-- The manager, what its slots hold for the sampler, and the sampler. -/
structure MetricsWorld where
  monitor : Monitor GwChannelManager (Option Errno)
  workerMetrics : Fin gwMaxChannels → GwProcessMetricsSnapshot
  trackers : Fin gwMaxChannels → GwProcessMetricsTracker
  metricsGeneration : Fin gwMaxChannels → Nat
  sampler : SamplerPhase
  reads : List MetricsRead

/-- What the system answers the sampler. -/
inductive SamplerAnswer where
  /-- `metrics_stop_requested` -/
  | stopRequested (requested : Bool)
  /-- `clock_gettime` and `gw_process_metrics_read` -/
  | sample (now : Option Timespec) (metrics : Option GwProcessMetrics)
  | nothing

/-- `monotonic_time_ns`. -/
def monotonicTimeNs (now : Option Timespec) : Int :=
  match now with
  | some time => time.nanoseconds
  | none => -1

/-- One slot is sampled. -/
def MetricsWorld.sample (cpuFigure : CpuFigure) (clockTicksPerSecond : Int) (world : MetricsWorld)
    (targets : Fin gwMaxChannels → GwMetricsTarget) (slot : Fin gwMaxChannels)
    (rest : List (Fin gwMaxChannels)) (now : Option Timespec)
    (metrics : Option GwProcessMetrics) : MetricsWorld :=
  let target := targets slot
  let sampleTimeNs := monotonicTimeNs now
  let tracker :=
    if world.metricsGeneration slot ≠ target.generation then gwProcessMetricsTrackerInit
    else world.trackers slot
  let raw := if target.pid > 0 then metrics else none
  let updated := gwProcessMetricsTrackerUpdate cpuFigure tracker target.pid raw sampleTimeNs
    clockTicksPerSecond
  { world with
      trackers := Function.update world.trackers slot updated.1
      metricsGeneration := Function.update world.metricsGeneration slot target.generation
      sampler := .publishing targets slot rest updated.2
      reads := world.reads ++ (raw.map fun read => ⟨slot, target.pid, read, sampleTimeNs⟩).toList }

/-- What was sampled is stored when the slot is still what it was, else cleared. -/
def MetricsWorld.publish (world : MetricsWorld) (targets : Fin gwMaxChannels → GwMetricsTarget)
    (slot : Fin gwMaxChannels) (rest : List (Fin gwMaxChannels))
    (sampled : GwProcessMetricsSnapshot) : MetricsWorld :=
  let current := (world.monitor.world.entries slot).metricsTarget
  { world with
      workerMetrics := Function.update world.workerMetrics slot
        (if current = targets slot then sampled else .cleared)
      sampler := .sampling targets rest }

/-- A step of `sample_process_metrics`. -/
def MetricsWorld.samplerStep (cpuFigure : CpuFigure) (clockTicksPerSecond : Int)
    (world : MetricsWorld) (answer : SamplerAnswer) : Option MetricsWorld :=
  match world.sampler, answer with
  | .waiting, .stopRequested true => some { world with sampler := .over }
  | .waiting, .stopRequested false =>
      some { world with
        sampler :=
          .sampling (fun slot => (world.monitor.world.entries slot).metricsTarget) slots }
  | .sampling targets (slot :: rest), .sample now metrics =>
      some (world.sample cpuFigure clockTicksPerSecond targets slot rest now metrics)
  | .publishing targets slot rest sampled, .nothing =>
      some (world.publish targets slot rest sampled)
  | .sampling _ [], .nothing => some { world with sampler := .waiting }
  | _, _ => none

/-! ## The manager beside it -/

/-- The slot was configured between these states: it is newly occupied, or its generation
went on. -/
def configures (before after : GwChannelEntry) : Bool :=
  after.occupied && (!before.occupied || before.generation != after.generation)

/-- A step of the manager: `configure_entry` clears `worker_metrics`. -/
def MetricsWorld.managed (world : MetricsWorld)
    (monitor : Monitor GwChannelManager (Option Errno)) : MetricsWorld :=
  { world with
      monitor := monitor
      workerMetrics := fun slot =>
        if configures (world.monitor.world.entries slot) (monitor.world.entries slot) then .cleared
        else world.workerMetrics slot }

/-- A step of the manager, its threads or its callers, or of the sampler. -/
inductive MetricsStep (cpuFigure : CpuFigure) (clockTicksPerSecond : Int) (world : MetricsWorld) :
    MetricsWorld → Prop
  | manager {monitor : Monitor GwChannelManager (Option Errno)}
      (step : Monitor.Step (managerSetting True fun _ => True) Calls world.monitor monitor) :
      MetricsStep cpuFigure clockTicksPerSecond world (world.managed monitor)
  /-- `pthread_create(&metrics_thread, …)` -/
  | begins (started : world.monitor.world.started = true)
      (phase : world.sampler = .notStarted) :
      MetricsStep cpuFigure clockTicksPerSecond world { world with sampler := .waiting }
  | sampler {after : MetricsWorld} (answer : SamplerAnswer)
      (step : world.samplerStep cpuFigure clockTicksPerSecond answer = some after) :
      MetricsStep cpuFigure clockTicksPerSecond world after

/-- A created manager, with nothing sampled. -/
def metricsWorldOf (manager : GwChannelManager) : MetricsWorld where
  monitor := ⟨manager, [], none⟩
  workerMetrics := fun _ => .cleared
  trackers := fun _ => gwProcessMetricsTrackerInit
  metricsGeneration := fun _ => 0
  sampler := .notStarted
  reads := []

/-- A snapshot that `gw_channel_manager_get_snapshot` or `gw_channel_manager_list_snapshots`
returns. -/
def MetricsWorld.Shows (world : MetricsWorld) (snapshot : GwChannelSnapshot) : Prop :=
  (∃ channelId, gwChannelManagerGetSnapshot world.workerMetrics channelId world.monitor.world =
      .ok snapshot) ∨
    ∃ capacity snapshots, gwChannelManagerListSnapshots world.workerMetrics capacity
      world.monitor.world = .ok snapshots ∧ snapshot ∈ snapshots

section Configured

variable {before after : GwChannelEntry} {options : GwSupervisorOptions}

theorem configures_of_same (h : SameConfiguration before after) :
    configures before after = false := by
  rw [configures, h.occupied, h.generation]
  cases before.occupied <;> simp

/-- `configure_entry` counts as configuring, whatever the slot was. -/
theorem configures_configureEntry (channel : GwChannelConfig) (config : GwConfig)
    (entry : GwChannelEntry) :
    configures entry (configureEntry options channel config entry) = true := by
  cases hoccupied : entry.occupied with
  | false => simp [configures, configureEntry, hoccupied]
  | true =>
    simp only [configures, configureEntry, hoccupied, Bool.not_true, Bool.false_or, Bool.true_and,
      if_true, bne_iff_ne]
    omega

/-- No other act of the lock's holder does. -/
theorem SetupAct.configured (h : SetupAct options before after)
    (hconfigures : configures before after = true) :
    ∃ channel config, after = configureEntry options channel config before := by
  cases h with
  | run act =>
    rw [configures_of_same ⟨act.setup.occupied, act.setup.generation⟩] at hconfigures
    cases hconfigures
  | @configure channel config _ _ _ => exact ⟨channel, config, rfl⟩
  | release => simp [configures] at hconfigures

/-- Where a step of the manager clears `worker_metrics`, it is `configure_entry` that ran. -/
theorem configured_of_configures {manager next : GwChannelManager} {slot : Fin gwMaxChannels}
    (hact : LifecycleAct True manager next ∨ Interferes True manager next)
    (h : configures (manager.entries slot) (next.entries slot) = true) :
    ∃ channel config, next.entries slot =
      configureEntry manager.callerOptions channel config (manager.entries slot) := by
  rcases hact with hact | hinterferes
  · rcases hact.slots slot with hsame | hsetup
    · rw [hsame, configures_of_same ⟨rfl, rfl⟩] at h
      cases h
    · exact hsetup.configured h
  · rw [configures_of_same (interferes_sameConfiguration slot hinterferes)] at h
    cases h

end Configured

/-! ## What a slot's metrics come from -/

/-- The values of one of a slot's reads of the process, and a CPU figure of that read and an
earlier one. -/
def Attributed (cpuFigure : CpuFigure) (clockTicksPerSecond : Int) (reads : List MetricsRead)
    (slot : Fin gwMaxChannels) (metrics : GwProcessMetricsSnapshot) : Prop :=
  ∃ before read rest, reads = before ++ read :: rest ∧ read.slot = slot ∧ read.pid = metrics.pid ∧
    metrics.rssKib = read.metrics.rssKib ∧ metrics.fdCount = read.metrics.fdCount ∧
    (metrics.cpuAvailable = true → ∃ earlier ∈ before,
      earlier.slot = slot ∧ earlier.pid = metrics.pid ∧ earlier.timeNs < read.timeNs ∧
        earlier.metrics.cpuTicks ≤ read.metrics.cpuTicks ∧
        metrics.cpuPercent = cpuFigure (read.metrics.cpuTicks - earlier.metrics.cpuTicks)
          clockTicksPerSecond (read.timeNs - earlier.timeNs))

/-- A valid baseline is a read of the tracker's process for its slot. -/
def Baseline (reads : List MetricsRead) (slot : Fin gwMaxChannels)
    (tracker : GwProcessMetricsTracker) : Prop :=
  tracker.baselineValid = true → ∃ read ∈ reads, read.slot = slot ∧ read.pid = tracker.pid ∧
    read.metrics.cpuTicks = tracker.previousCpuTicks ∧ read.timeNs = tracker.previousTimeNs

/-- What holds in every state: what is stored, and what is about to be stored, is attributed,
and so are the baselines. -/
structure SamplerInv (cpuFigure : CpuFigure) (clockTicksPerSecond : Int) (world : MetricsWorld) :
    Prop where
  stored : ∀ slot, (world.workerMetrics slot).available = true →
    Attributed cpuFigure clockTicksPerSecond world.reads slot (world.workerMetrics slot)
  baselines : ∀ slot, Baseline world.reads slot (world.trackers slot)
  sampled : ∀ targets slot rest sampled, world.sampler = .publishing targets slot rest sampled →
    sampled.available = true → Attributed cpuFigure clockTicksPerSecond world.reads slot sampled

section Sampler

variable {cpuFigure : CpuFigure} {clockTicksPerSecond : Int} {reads : List MetricsRead}
  {slot : Fin gwMaxChannels} {world after : MetricsWorld}

theorem Attributed.append {metrics : GwProcessMetricsSnapshot}
    (h : Attributed cpuFigure clockTicksPerSecond reads slot metrics) (more : List MetricsRead) :
    Attributed cpuFigure clockTicksPerSecond (reads ++ more) slot metrics := by
  obtain ⟨before, read, rest, rfl, hread⟩ := h
  exact ⟨before, read, rest ++ more, by rw [List.append_assoc, List.cons_append], hread⟩

theorem Baseline.append {tracker : GwProcessMetricsTracker} (h : Baseline reads slot tracker)
    (more : List MetricsRead) : Baseline (reads ++ more) slot tracker := by
  intro hvalid
  obtain ⟨read, hmem, hread⟩ := h hvalid
  exact ⟨read, List.mem_append_left more hmem, hread⟩

theorem baseline_init : Baseline reads slot gwProcessMetricsTrackerInit := by
  intro hvalid
  cases hvalid

/-- An update attributes what it makes to the read it is given and to its baseline. -/
theorem tracker_update {tracker : GwProcessMetricsTracker} (h : Baseline reads slot tracker)
    (pid : Int) (metrics : Option GwProcessMetrics) (sampleTimeNs : Int) :
    let read := (metrics.map fun read => (⟨slot, pid, read, sampleTimeNs⟩ : MetricsRead)).toList
    let updated := gwProcessMetricsTrackerUpdate cpuFigure tracker pid metrics sampleTimeNs
      clockTicksPerSecond
    Baseline (reads ++ read) slot updated.1 ∧
      (updated.2.available = true →
        Attributed cpuFigure clockTicksPerSecond (reads ++ read) slot updated.2) := by
  cases metrics with
  | none => exact ⟨baseline_init, fun havailable => by cases havailable⟩
  | some metrics =>
    dsimp only [gwProcessMetricsTrackerUpdate]
    split
    · exact ⟨baseline_init, fun havailable => by cases havailable⟩
    · refine ⟨fun _ => ⟨_, List.mem_append_right reads List.mem_cons_self, rfl, rfl, rfl, rfl⟩,
        fun _ => ⟨reads, _, [], rfl, rfl, rfl, rfl, rfl, fun hsame => ?_⟩⟩
      have hbaseline := hsame
      simp only [GwProcessMetricsTracker.sameBaseline, Bool.and_eq_true, decide_eq_true_eq]
        at hbaseline
      obtain ⟨⟨⟨hvalid, hpid⟩, htime⟩, hticks⟩ := hbaseline
      obtain ⟨earlier, hmem, hslot, hearlier, hprevious, hbefore⟩ := h hvalid
      refine ⟨earlier, hmem, hslot, hearlier.trans hpid, ?_, ?_, ?_⟩
      · rw [hbefore]
        exact htime
      · rw [hprevious]
        exact hticks
      · rw [hprevious, hbefore]
        exact if_pos hsame

/-- One slot is sampled. -/
theorem SamplerInv.sample (h : SamplerInv cpuFigure clockTicksPerSecond world)
    (targets : Fin gwMaxChannels → GwMetricsTarget) (slot : Fin gwMaxChannels)
    (rest : List (Fin gwMaxChannels)) (now : Option Timespec)
    (metrics : Option GwProcessMetrics) :
    SamplerInv cpuFigure clockTicksPerSecond
      (world.sample cpuFigure clockTicksPerSecond targets slot rest now metrics) := by
  have hbaseline : Baseline world.reads slot
      (if world.metricsGeneration slot ≠ (targets slot).generation then
        gwProcessMetricsTrackerInit else world.trackers slot) := by
    split
    · exact baseline_init
    · exact h.baselines slot
  obtain ⟨htracker, hsampled⟩ := @tracker_update cpuFigure clockTicksPerSecond _ _ _ hbaseline
    (targets slot).pid (if (targets slot).pid > 0 then metrics else none) (monotonicTimeNs now)
  refine ⟨fun other havailable => (h.stored other havailable).append _, fun other => ?_, ?_⟩
  · by_cases hsame : other = slot
    · subst hsame
      simp only [MetricsWorld.sample, Function.update_self]
      exact htracker
    · simp only [MetricsWorld.sample, Function.update_of_ne hsame]
      exact (h.baselines other).append _
  · intro targets' slot' rest' sampled hphase havailable
    simp only [MetricsWorld.sample, SamplerPhase.publishing.injEq] at hphase
    obtain ⟨-, rfl, -, rfl⟩ := hphase
    exact hsampled havailable

/-- What was sampled is stored, or the slot's metrics are cleared. -/
theorem SamplerInv.publish (h : SamplerInv cpuFigure clockTicksPerSecond world)
    {targets : Fin gwMaxChannels → GwMetricsTarget} {slot : Fin gwMaxChannels}
    {rest : List (Fin gwMaxChannels)} {sampled : GwProcessMetricsSnapshot}
    (hphase : world.sampler = .publishing targets slot rest sampled) :
    SamplerInv cpuFigure clockTicksPerSecond (world.publish targets slot rest sampled) := by
  refine ⟨fun other => ?_, h.baselines, fun _ _ _ _ hphase' => by cases hphase'⟩
  by_cases hsame : other = slot
  · subst hsame
    simp only [MetricsWorld.publish, Function.update_self]
    split
    · exact h.sampled targets other rest sampled hphase
    · intro havailable
      cases havailable
  · simp only [MetricsWorld.publish, Function.update_of_ne hsame]
    exact h.stored other

/-- A phase with nothing to publish. -/
theorem SamplerInv.phase (h : SamplerInv cpuFigure clockTicksPerSecond world)
    {phase : SamplerPhase}
    (hphase : ∀ targets slot rest sampled, phase ≠ .publishing targets slot rest sampled) :
    SamplerInv cpuFigure clockTicksPerSecond { world with sampler := phase } :=
  ⟨h.stored, h.baselines, fun targets slot rest sampled hpublishing =>
    absurd hpublishing (hphase targets slot rest sampled)⟩

/-- A step of the sampler. -/
theorem SamplerInv.samplerStep (h : SamplerInv cpuFigure clockTicksPerSecond world)
    {answer : SamplerAnswer}
    (hstep : world.samplerStep cpuFigure clockTicksPerSecond answer = some after) :
    SamplerInv cpuFigure clockTicksPerSecond after := by
  unfold MetricsWorld.samplerStep at hstep
  split at hstep
  · rw [← Option.some.inj hstep]
    exact h.phase (by simp)
  · rw [← Option.some.inj hstep]
    exact h.phase (by simp)
  · rw [← Option.some.inj hstep]
    exact h.sample _ _ _ _ _
  · rename_i hphase
    rw [← Option.some.inj hstep]
    exact h.publish hphase
  · rw [← Option.some.inj hstep]
    exact h.phase (by simp)
  · cases hstep

theorem SamplerInv.step (h : SamplerInv cpuFigure clockTicksPerSecond world)
    (hstep : MetricsStep cpuFigure clockTicksPerSecond world after) :
    SamplerInv cpuFigure clockTicksPerSecond after := by
  cases hstep with
  | manager step =>
    refine ⟨fun slot => ?_, h.baselines, h.sampled⟩
    simp only [MetricsWorld.managed]
    split
    · intro havailable
      cases havailable
    · exact h.stored slot
  | begins started phase => exact h.phase (by simp)
  | sampler answer step => exact h.samplerStep step

theorem samplerInv_metricsWorldOf (manager : GwChannelManager) :
    SamplerInv cpuFigure clockTicksPerSecond (metricsWorldOf manager) := by
  refine ⟨?_, fun _ => baseline_init, ?_⟩
  · intro slot havailable
    cases havailable
  · intro targets slot rest sampled hphase
    cases hphase

theorem samplerInv_of_run {manager : GwChannelManager}
    (hrun : Relation.ReflTransGen (MetricsStep cpuFigure clockTicksPerSecond)
      (metricsWorldOf manager) world) :
    SamplerInv cpuFigure clockTicksPerSecond world := by
  induction hrun with
  | refl => exact samplerInv_metricsWorldOf manager
  | tail _ hstep ih => exact ih.step hstep

end Sampler

/-! ## What readers see -/

section Shown

variable {sampled : Fin gwMaxChannels → GwProcessMetricsSnapshot} {manager : GwChannelManager}
  {snapshot : GwChannelSnapshot}

theorem getSnapshot_shown {channelId : Bytes}
    (h : gwChannelManagerGetSnapshot sampled channelId manager = .ok snapshot) :
    ∃ slot, (manager.entries slot).occupied = true ∧
      snapshot = shownSnapshot sampled manager slot := by
  unfold gwChannelManagerGetSnapshot at h
  dsimp only at h
  split at h
  · rename_i slot hfound
    have hoccupied := List.find?_some hfound
    rw [Bool.and_eq_true] at hoccupied
    exact ⟨slot, hoccupied.1, (Except.ok.inj h).symm⟩
  · cases h

theorem copySnapshots_shown {capacity : Nat} {rest : List (Fin gwMaxChannels)}
    {copied snapshots : List GwChannelSnapshot}
    (h : copySnapshots sampled capacity manager rest copied = .ok snapshots)
    (hcopied : ∀ snapshot ∈ copied, ∃ slot, (manager.entries slot).occupied = true ∧
      snapshot = shownSnapshot sampled manager slot) :
    ∀ snapshot ∈ snapshots, ∃ slot, (manager.entries slot).occupied = true ∧
      snapshot = shownSnapshot sampled manager slot := by
  induction rest generalizing copied with
  | nil =>
    rw [← Except.ok.inj h]
    exact hcopied
  | cons slot rest ih =>
    unfold copySnapshots at h
    split at h
    · exact ih h hcopied
    · rename_i hoccupied
      rw [Bool.not_eq_true', Bool.not_eq_false] at hoccupied
      split at h
      · cases h
      · refine ih h fun shown hmem => ?_
        rcases List.mem_append.mp hmem with hbefore | hnew
        · exact hcopied shown hbefore
        · exact ⟨slot, hoccupied, List.mem_singleton.mp hnew⟩

/-- Available metrics in a shown snapshot are the slot's, of the worker it shows. -/
theorem shownSnapshot_available {slot : Fin gwMaxChannels}
    (havailable : (shownSnapshot sampled manager slot).workerMetrics.available = true) :
    (shownSnapshot sampled manager slot).processKind = .worker ∧
      (shownSnapshot sampled manager slot).workerMetrics = sampled slot ∧
      (sampled slot).pid = (shownSnapshot sampled manager slot).processPid := by
  unfold shownSnapshot attachWorkerMetrics at havailable ⊢
  split at havailable
  · rename_i hattached
    rw [if_pos hattached]
    exact ⟨hattached.1, rfl, hattached.2⟩
  · cases havailable

end Shown

theorem MetricsWorld.Shows.slot {world : MetricsWorld} {snapshot : GwChannelSnapshot}
    (h : world.Shows snapshot) :
    ∃ slot, (world.monitor.world.entries slot).occupied = true ∧
      snapshot = shownSnapshot world.workerMetrics world.monitor.world slot := by
  rcases h with ⟨channelId, hget⟩ | ⟨capacity, snapshots, hlist, hmem⟩
  · exact getSnapshot_shown hget
  · exact copySnapshots_shown hlist (List.forall_mem_nil _) snapshot hmem

section Main

variable {cpuFigure : CpuFigure} {clockTicksPerSecond : Int} {manager : GwChannelManager}
  {world : MetricsWorld} {snapshot : GwChannelSnapshot}

/-- In every state of every interleaving, available metrics in a snapshot are those of the
worker it shows: read from that process for that slot, and a CPU figure of two such reads. -/
theorem worker_metrics_attributed
    (hrun : Relation.ReflTransGen (MetricsStep cpuFigure clockTicksPerSecond)
      (metricsWorldOf manager) world)
    (hshown : world.Shows snapshot) (havailable : snapshot.workerMetrics.available = true) :
    snapshot.processKind = .worker ∧ snapshot.workerMetrics.pid = snapshot.processPid ∧
      ∃ slot, (world.monitor.world.entries slot).occupied = true ∧
        snapshot = shownSnapshot world.workerMetrics world.monitor.world slot ∧
        Attributed cpuFigure clockTicksPerSecond world.reads slot snapshot.workerMetrics := by
  obtain ⟨slot, hoccupied, rfl⟩ := hshown.slot
  obtain ⟨hworker, hsampled, hpid⟩ := shownSnapshot_available havailable
  refine ⟨hworker, by rw [hsampled, hpid], slot, hoccupied, rfl, ?_⟩
  rw [hsampled] at havailable ⊢
  exact (samplerInv_of_run hrun).stored slot havailable

/-! ### A worker sampled twice -/

/-- As long as nothing is stored, a run of the manager changes nothing else. -/
theorem run_of_managerRun {Q : GwChannelManager → GwChannelManager → Prop}
    (hcleared : world.workerMetrics = fun _ => .cleared)
    {monitor : Monitor GwChannelManager (Option Errno)} (h : ManagerRun Q world.monitor monitor) :
    Relation.ReflTransGen (MetricsStep cpuFigure clockTicksPerSecond) world
      { world with monitor := monitor } := by
  induction h with
  | refl => exact .refl
  | @tail before after _ hstep ih =>
    have hnext : MetricsStep cpuFigure clockTicksPerSecond { world with monitor := before }
        (({ world with monitor := before } : MetricsWorld).managed after) := .manager hstep.1
    have hsame : ({ world with monitor := before } : MetricsWorld).managed after =
        { world with monitor := after } := by
      simp only [MetricsWorld.managed, hcleared, ite_self]
    exact ih.tail (hsame ▸ hnext)

/-- The sampler alone, answered so. -/
def MetricsWorld.samplerRun (cpuFigure : CpuFigure) (clockTicksPerSecond : Int)
    (world : MetricsWorld) : List SamplerAnswer → Option MetricsWorld
  | [] => some world
  | answer :: rest =>
      (world.samplerStep cpuFigure clockTicksPerSecond answer).bind fun after =>
        after.samplerRun cpuFigure clockTicksPerSecond rest

theorem run_of_samplerRun {answers : List SamplerAnswer} {after : MetricsWorld}
    (h : world.samplerRun cpuFigure clockTicksPerSecond answers = some after) :
    Relation.ReflTransGen (MetricsStep cpuFigure clockTicksPerSecond) world after := by
  induction answers generalizing world with
  | nil => exact Option.some.inj h ▸ .refl
  | cons answer rest ih =>
    obtain ⟨next, hstep, hrest⟩ := Option.bind_eq_some_iff.mp h
    exact (ih hrest).head (.sampler answer hstep)

/-- A pass that finds these values for the first slot. -/
def passOf (now : Timespec) (metrics : GwProcessMetrics) : List SamplerAnswer :=
  .stopRequested false :: (slots.flatMap fun slot =>
    [.sample (some now) (if slot = firstSlot then some metrics else none), .nothing]) ++ [.nothing]

/-- The started manager, once the first slot has published its worker. -/
def workerManager (manager : GwChannelManager) : GwChannelManager :=
  let entry := manager.entries firstSlot
  manager.setEntry firstSlot
    (((entry.snapshotsOf restartedOnce).take 3).foldl (GwChannelEntry.publish 0) entry)

/-- Its worker is sampled twice, a second apart. -/
def sampledTwice : Option MetricsWorld :=
  freshManager.bind fun manager =>
    ({ metricsWorldOf (workerManager manager) with sampler := .waiting } : MetricsWorld).samplerRun
      (fun ticks _ _ => .finite ⟨false, ticks⟩) 100
      (passOf (atSecond 1) ⟨100, 2048, 7⟩ ++ passOf (atSecond 2) ⟨150, 4096, 8⟩)

theorem run_workerManager (h : freshManager = some manager) :
    ∃ created, createdManager = .ok created ∧
      ManagerRun (fun _ _ => True) ⟨created, [], none⟩ ⟨workerManager manager, [], none⟩ := by
  obtain ⟨created, hcreated, hrun⟩ := run_fresh h
  have hobserve : freshManager.map (GwChannelManager.canObserve restartedOnce 0) = some true := by
    decide +kernel
  rw [h, Option.map_some, Option.some.injEq] at hobserve
  obtain ⟨hfound, hmonotone⟩ := Bool.and_eq_true_iff.mp hobserve
  have hlater := @later_publish manager firstSlot 0 (manager.entries firstSlot) _
    (((manager.entries firstSlot).snapshotsOf restartedOnce).take 3) (of_decide_eq_true hfound) rfl
    ⟨noNumber, restartedOnce, of_decide_eq_true hmonotone, List.take_prefix _ _⟩
  have hsame : manager.setEntry firstSlot (manager.entries firstSlot) = manager := by
    simp only [GwChannelManager.setEntry, Function.update_eq_self]
  rw [hsame] at hlater
  have hfirst : ManagerRun (fun _ _ => True) ⟨created, [], none⟩ ⟨manager, [], none⟩ :=
    Relation.ReflTransGen.mono (fun _ _ hstep => ⟨hstep.1, trivial⟩) _ _ hrun
  exact ⟨created, hcreated, hfirst.trans (Monitor.RunsBy.interference (fun _ _ _ => trivial) hlater)⟩

theorem worker_metrics_attributed_twice :
    (sampledTwice.map fun world =>
        let shown := shownSnapshot world.workerMetrics world.monitor.world firstSlot
        (shown.processPid, shown.workerMetrics)) =
      some (77, ⟨77, true, true, .finite ⟨false, 50⟩, 4096, 8⟩) ∧
      ∀ world, sampledTwice = some world → ∀ snapshot, world.Shows snapshot →
        snapshot.workerMetrics.available = true →
        snapshot.processKind = .worker ∧ snapshot.workerMetrics.pid = snapshot.processPid ∧
          ∃ slot, (world.monitor.world.entries slot).occupied = true ∧
            snapshot = shownSnapshot world.workerMetrics world.monitor.world slot ∧
            Attributed (fun ticks _ _ => .finite ⟨false, ticks⟩) 100 world.reads slot
              snapshot.workerMetrics := by
  refine ⟨by decide +kernel, fun world h snapshot hshown havailable => ?_⟩
  obtain ⟨manager, hfresh, hsampler⟩ := Option.bind_eq_some_iff.mp h
  obtain ⟨created, -, hmanager⟩ := run_workerManager hfresh
  have hstarted : freshManager.map (fun manager => (workerManager manager).started) =
      some true := by decide +kernel
  rw [hfresh, Option.map_some, Option.some.injEq] at hstarted
  have hrun := @run_of_managerRun (fun ticks _ _ => .finite ⟨false, ticks⟩) 100
    (metricsWorldOf created) _ rfl _ hmanager
  exact worker_metrics_attributed ((hrun.tail (.begins hstarted rfl)).trans
    (run_of_samplerRun hsampler)) hshown havailable

end Main

end LearnApue.Gateway
