import LearnApue.Gateway.MetricsSampler

set_option autoImplicit false

/-!
# Gateway: CPU tracking over calls (`gw_process_metrics_tracker_update`)

The tracker in the types of the machine: 64-bit ticks whose difference can wrap,
64-bit times whose difference can overflow, and a quotient whose divisor can be
zero.  An operation without a defined result gives none, and `cpu_percent` is
exact.  `update_exact` connects it to the tracker of the sampler.

A tracker knows no more than the last call (`Tracker.of`), so a snapshot depends
on two adjacent calls.
-/

namespace LearnApue.Gateway.Machine

open LearnApue.Foundation

/-! ## The transcription -/

/-- `gw_process_metrics`. -/
structure Metrics where
  cpuTicks : UInt64
  rssKib : Int64
  fdCount : UInt64
  deriving DecidableEq

/-- `gw_process_metrics_tracker`. -/
structure Tracker where
  pid : Int32
  baselineValid : Bool
  previousCpuTicks : UInt64
  previousTimeNs : Int64
  deriving DecidableEq

/-- `gw_process_metrics_snapshot`. -/
structure Snapshot where
  pid : Int32
  available : Bool
  cpuAvailable : Bool
  cpuPercent : ℚ
  rssKib : Int64
  fdCount : UInt64
  deriving DecidableEq

/-- The arguments of a call. -/
structure TrackerCall where
  pid : Int32
  metrics : Option Metrics
  sampleTimeNs : Int64
  clockTicksPerSecond : Int64
  deriving DecidableEq

/-- A difference of two `int64_t`, where it is one. -/
def subInt64? (first second : Int64) : Option Int64 :=
  let exact := first.toInt - second.toInt
  if -2 ^ 63 ≤ exact ∧ exact < 2 ^ 63 then some (Int64.ofInt exact) else none

/-- `cpu_percent`, where its divisor is not zero. -/
def cpuPercent? (deltaTicks : UInt64) (clockTicksPerSecond deltaTimeNs : Int64) : Option ℚ :=
  let divisor : ℚ := clockTicksPerSecond.toInt * deltaTimeNs.toInt
  if divisor = 0 then none else some (deltaTicks.toNat * 100 * 1000000000 / divisor)

/-- `gw_process_metrics_tracker_init`. -/
def gwProcessMetricsTrackerInit : Tracker := ⟨-1, false, 0, 0⟩

/-- `same_baseline`. -/
def Tracker.sameBaseline (tracker : Tracker) (call : TrackerCall) (metrics : Metrics) : Bool :=
  tracker.baselineValid && tracker.pid = call.pid &&
    call.sampleTimeNs > tracker.previousTimeNs && metrics.cpuTicks ≥ tracker.previousCpuTicks

/-- `gw_process_metrics_tracker_update`: the tracker and the snapshot. -/
def gwProcessMetricsTrackerUpdate (tracker : Tracker) (call : TrackerCall) :
    Option (Tracker × Snapshot) :=
  let unavailable : Snapshot := ⟨call.pid, false, false, 0, 0, 0⟩
  match call.metrics with
  | none => some (gwProcessMetricsTrackerInit, unavailable)
  | some metrics =>
      if call.pid ≤ 0 ∨ call.sampleTimeNs ≤ 0 ∨ call.clockTicksPerSecond ≤ 0 then
        some (gwProcessMetricsTrackerInit, unavailable)
      else
        let next : Tracker := ⟨call.pid, true, metrics.cpuTicks, call.sampleTimeNs⟩
        if tracker.sameBaseline call metrics then do
          let deltaTicks := metrics.cpuTicks - tracker.previousCpuTicks
          let deltaTimeNs ← subInt64? call.sampleTimeNs tracker.previousTimeNs
          let percent ← cpuPercent? deltaTicks call.clockTicksPerSecond deltaTimeNs
          return (next, ⟨call.pid, true, true, percent, metrics.rssKib, metrics.fdCount⟩)
        else some (next, ⟨call.pid, true, false, 0, metrics.rssKib, metrics.fdCount⟩)

/-- The snapshots of a sequence of calls. -/
def trackerRun (tracker : Tracker) : List TrackerCall → Option (List Snapshot)
  | [] => some []
  | call :: rest => do
      let (next, snapshot) ← gwProcessMetricsTrackerUpdate tracker call
      let snapshots ← trackerRun next rest
      return snapshot :: snapshots

/-! ## Two adjacent calls -/

/-- A call with a process, its metrics, a time and a clock rate. -/
structure TrackerCall.Valid (call : TrackerCall) (metrics : Metrics) : Prop where
  metrics : call.metrics = some metrics
  pid : 0 < call.pid
  sampleTimeNs : 0 < call.sampleTimeNs
  clockTicksPerSecond : 0 < call.clockTicksPerSecond

/-- A valid call directly behind a valid one of the same process, at a later time
and with no fewer ticks. -/
structure Adjacent (earlier : TrackerCall) (old : Metrics) (call : TrackerCall)
    (metrics : Metrics) : Prop where
  validBefore : earlier.Valid old
  valid : call.Valid metrics
  samePid : earlier.pid = call.pid
  later : earlier.sampleTimeNs < call.sampleTimeNs
  noFewer : old.cpuTicks ≤ metrics.cpuTicks

/-- The ticks between two calls as a percentage of the time between them. -/
def exactPercent (earlier : TrackerCall) (old : Metrics) (call : TrackerCall)
    (metrics : Metrics) : ℚ :=
  ((metrics.cpuTicks.toNat : ℚ) - old.cpuTicks.toNat) * 100 * 10 ^ 9 /
    (call.clockTicksPerSecond.toInt *
      ((call.sampleTimeNs.toInt : ℚ) - earlier.sampleTimeNs.toInt))

/-- The snapshot of a call behind another one. -/
structure SnapshotOf (previous : Option TrackerCall) (call : TrackerCall) (snapshot : Snapshot) :
    Prop where
  available : snapshot.available = true ↔ ∃ metrics, call.Valid metrics
  cpuAvailable : snapshot.cpuAvailable = true ↔
    ∃ earlier old metrics, previous = some earlier ∧ Adjacent earlier old call metrics
  cpuPercent : ∀ earlier old metrics, previous = some earlier →
    Adjacent earlier old call metrics →
    snapshot.cpuPercent = exactPercent earlier old call metrics ∧ 0 ≤ snapshot.cpuPercent
  values : ∀ metrics, call.Valid metrics →
    snapshot.rssKib = metrics.rssKib ∧ snapshot.fdCount = metrics.fdCount
  cleared : snapshot.available = false → snapshot.cpuAvailable = false ∧
    snapshot.cpuPercent = 0 ∧ snapshot.rssKib = 0 ∧ snapshot.fdCount = 0

/-- What a tracker knows behind a call. -/
def Tracker.of : Option TrackerCall → Tracker
  | none => gwProcessMetricsTrackerInit
  | some call =>
      match call.metrics with
      | none => gwProcessMetricsTrackerInit
      | some metrics =>
          if call.pid ≤ 0 ∨ call.sampleTimeNs ≤ 0 ∨ call.clockTicksPerSecond ≤ 0 then
            gwProcessMetricsTrackerInit
          else ⟨call.pid, true, metrics.cpuTicks, call.sampleTimeNs⟩

theorem valid_iff {call : TrackerCall} {metrics : Metrics} (hmetrics : call.metrics = some metrics) :
    call.Valid metrics ↔
      ¬ (call.pid ≤ 0 ∨ call.sampleTimeNs ≤ 0 ∨ call.clockTicksPerSecond ≤ 0) := by
  simp only [not_or, Int32.not_le, Int64.not_le]
  exact ⟨fun h => ⟨h.pid, h.sampleTimeNs, h.clockTicksPerSecond⟩,
    fun h => ⟨hmetrics, h.1, h.2.1, h.2.2⟩⟩

theorem Tracker.of_valid {call : TrackerCall} {metrics : Metrics} (h : call.Valid metrics) :
    Tracker.of (some call) = ⟨call.pid, true, metrics.cpuTicks, call.sampleTimeNs⟩ := by
  rw [Tracker.of, h.metrics]
  exact if_neg ((valid_iff h.metrics).mp h)

/-- A tracker with a baseline had a valid call. -/
theorem Tracker.baseline_of {previous : Option TrackerCall}
    (h : (Tracker.of previous).baselineValid = true) :
    ∃ earlier old, previous = some earlier ∧ earlier.Valid old := by
  cases previous with
  | none => cases h
  | some earlier =>
    cases hmetrics : earlier.metrics with
    | none =>
      simp only [Tracker.of, hmetrics] at h
      cases h
    | some old =>
      simp only [Tracker.of, hmetrics] at h
      split at h
      · cases h
      · rename_i hvalid
        exact ⟨earlier, old, rfl, (valid_iff hmetrics).mpr hvalid⟩

/-- The baseline is good exactly behind an adjacent call. -/
theorem sameBaseline_iff {previous : Option TrackerCall} {call : TrackerCall} {metrics : Metrics}
    (hvalid : call.Valid metrics) :
    (Tracker.of previous).sameBaseline call metrics = true ↔
      ∃ earlier old, previous = some earlier ∧ Adjacent earlier old call metrics := by
  simp only [Tracker.sameBaseline, Bool.and_eq_true, decide_eq_true_eq]
  constructor
  · rintro ⟨⟨⟨hbaseline, hpid⟩, htime⟩, hticks⟩
    obtain ⟨earlier, old, rfl, hold⟩ := Tracker.baseline_of hbaseline
    rw [Tracker.of_valid hold] at hpid htime hticks
    exact ⟨earlier, old, rfl, hold, hvalid, hpid, htime, hticks⟩
  · rintro ⟨earlier, old, rfl, hadjacent⟩
    rw [Tracker.of_valid hadjacent.validBefore]
    exact ⟨⟨⟨rfl, hadjacent.samePid⟩, hadjacent.later⟩, hadjacent.noFewer⟩

/-! ## One call -/

/-- Two positive times have a difference, and it is the exact one. -/
theorem subInt64?_of_lt {first second : Int64} (hpos : 0 < second) (hlt : second < first) :
    ∃ delta, subInt64? first second = some delta ∧
      delta.toInt = first.toInt - second.toInt := by
  rw [Int64.lt_iff_toInt_lt] at hpos hlt
  have hbound := first.toInt_lt
  have hzero : (0 : Int64).toInt = 0 := rfl
  refine ⟨Int64.ofInt (first.toInt - second.toInt), if_pos ⟨by omega, by omega⟩, ?_⟩
  exact Int64.toInt_ofInt_of_le (by omega) (by omega)

/-- The ticks between two adjacent calls do not wrap. -/
theorem Adjacent.toNat_sub {earlier call : TrackerCall} {old metrics : Metrics}
    (h : Adjacent earlier old call metrics) :
    ((metrics.cpuTicks - old.cpuTicks).toNat : ℚ) =
      (metrics.cpuTicks.toNat : ℚ) - old.cpuTicks.toNat := by
  rw [UInt64.toNat_sub_of_le _ _ h.noFewer, Nat.cast_sub (UInt64.le_iff_toNat_le.mp h.noFewer)]

/-- The percentage of two adjacent calls has no zero divisor. -/
theorem Adjacent.percent {earlier call : TrackerCall} {old metrics : Metrics} {delta : Int64}
    (h : Adjacent earlier old call metrics)
    (hdelta : delta.toInt = call.sampleTimeNs.toInt - earlier.sampleTimeNs.toInt) :
    cpuPercent? (metrics.cpuTicks - old.cpuTicks) call.clockTicksPerSecond delta =
        some (exactPercent earlier old call metrics) ∧
      0 ≤ exactPercent earlier old call metrics := by
  have hrate := Int64.lt_iff_toInt_lt.mp h.valid.clockTicksPerSecond
  have hlater := Int64.lt_iff_toInt_lt.mp h.later
  have hzero : (0 : Int64).toInt = 0 := rfl
  have hrate : (0 : ℚ) < call.clockTicksPerSecond.toInt := by
    exact_mod_cast hzero ▸ hrate
  have htime : (0 : ℚ) < (call.sampleTimeNs.toInt : ℚ) - earlier.sampleTimeNs.toInt := by
    rw [sub_pos]
    exact_mod_cast hlater
  have hticks : (0 : ℚ) ≤ (metrics.cpuTicks.toNat : ℚ) - old.cpuTicks.toNat := by
    rw [← h.toNat_sub]
    exact Nat.cast_nonneg _
  constructor
  · unfold cpuPercent? exactPercent
    rw [hdelta, Int.cast_sub, if_neg (mul_pos hrate htime).ne', h.toNat_sub]
    norm_num
  · unfold exactPercent
    positivity

variable {previous : Option TrackerCall} {call : TrackerCall}

theorem snapshotOf_unavailable (h : ∀ metrics, ¬ call.Valid metrics) :
    SnapshotOf previous call ⟨call.pid, false, false, 0, 0, 0⟩ where
  available := ⟨nofun, fun ⟨metrics, hvalid⟩ => absurd hvalid (h metrics)⟩
  cpuAvailable := ⟨nofun, fun ⟨_, _, metrics, _, hadjacent⟩ => absurd hadjacent.valid (h metrics)⟩
  cpuPercent := fun _ _ metrics _ hadjacent => absurd hadjacent.valid (h metrics)
  values := fun metrics hvalid => absurd hvalid (h metrics)
  cleared := fun _ => ⟨rfl, rfl, rfl, rfl⟩

theorem TrackerCall.Valid.unique {metrics other : Metrics} (h : call.Valid metrics) (hother : call.Valid other) :
    other = metrics := Option.some.inj (hother.metrics.symm.trans h.metrics)

theorem snapshotOf_first {metrics : Metrics} (hvalid : call.Valid metrics)
    (h : ¬ ∃ earlier old, previous = some earlier ∧ Adjacent earlier old call metrics) :
    SnapshotOf previous call ⟨call.pid, true, false, 0, metrics.rssKib, metrics.fdCount⟩ where
  available := ⟨fun _ => ⟨metrics, hvalid⟩, fun _ => rfl⟩
  cpuAvailable := by
    refine ⟨nofun, ?_⟩
    rintro ⟨earlier, old, other, hprevious, hadjacent⟩
    rw [hvalid.unique hadjacent.valid] at hadjacent
    exact absurd ⟨earlier, old, hprevious, hadjacent⟩ h
  cpuPercent := by
    intro earlier old other hprevious hadjacent
    rw [hvalid.unique hadjacent.valid] at hadjacent
    exact absurd ⟨earlier, old, hprevious, hadjacent⟩ h
  values := by
    intro other hother
    rw [hvalid.unique hother]
    exact ⟨rfl, rfl⟩
  cleared := nofun

theorem snapshotOf_adjacent {earlier : TrackerCall} {old metrics : Metrics}
    (hprevious : previous = some earlier) (h : Adjacent earlier old call metrics)
    (hpercent : 0 ≤ exactPercent earlier old call metrics) :
    SnapshotOf previous call
      ⟨call.pid, true, true, exactPercent earlier old call metrics, metrics.rssKib,
        metrics.fdCount⟩ where
  available := ⟨fun _ => ⟨metrics, h.valid⟩, fun _ => rfl⟩
  cpuAvailable := ⟨fun _ => ⟨earlier, old, metrics, hprevious, h⟩, fun _ => rfl⟩
  cpuPercent := by
    intro other otherOld otherMetrics hother hadjacent
    rw [hprevious, Option.some.injEq] at hother
    subst hother
    rw [h.valid.unique hadjacent.valid, h.validBefore.unique hadjacent.validBefore]
    exact ⟨rfl, hpercent⟩
  values := by
    intro other hother
    rw [h.valid.unique hother]
    exact ⟨rfl, rfl⟩
  cleared := nofun

/-- A call has a defined result, and the tracker behind it knows this call. -/
theorem update_of (previous : Option TrackerCall) (call : TrackerCall) :
    ∃ snapshot, gwProcessMetricsTrackerUpdate (Tracker.of previous) call =
        some (Tracker.of (some call), snapshot) ∧
      SnapshotOf previous call snapshot := by
  unfold gwProcessMetricsTrackerUpdate
  cases hmetrics : call.metrics with
  | none =>
    refine ⟨_, ?_, snapshotOf_unavailable fun metrics hvalid => ?_⟩
    · simp only [Tracker.of, hmetrics]
    · have hnone := hvalid.metrics
      rw [hmetrics] at hnone
      cases hnone
  | some metrics =>
    dsimp only
    split
    · rename_i hguard
      refine ⟨_, ?_, snapshotOf_unavailable fun other hvalid => ?_⟩
      · simp only [Tracker.of, hmetrics, if_pos hguard]
      · exact (valid_iff hvalid.metrics).mp hvalid hguard
    · rename_i hguard
      have hvalid : call.Valid metrics := (valid_iff hmetrics).mpr hguard
      split
      · rename_i hsame
        obtain ⟨earlier, old, rfl, hadjacent⟩ := (sameBaseline_iff hvalid).mp hsame
        obtain ⟨delta, hsub, hdelta⟩ :=
          subInt64?_of_lt hadjacent.validBefore.sampleTimeNs hadjacent.later
        obtain ⟨hpercent, hnonneg⟩ := hadjacent.percent hdelta
        refine ⟨_, ?_, snapshotOf_adjacent rfl hadjacent hnonneg⟩
        simp only [Tracker.of_valid hadjacent.validBefore, Tracker.of_valid hvalid, hsub,
          hpercent, Option.bind_eq_bind, Option.bind_some, Option.pure_def]
      · rename_i hsame
        rw [sameBaseline_iff hvalid] at hsame
        exact ⟨_, by rw [Tracker.of_valid hvalid], snapshotOf_first hvalid hsame⟩

/-! ## Sequences of calls -/

/-- The call in front of one, when there is one. -/
def callBefore (calls : List TrackerCall) : Nat → Option TrackerCall
  | 0 => none
  | n + 1 => calls[n]?

theorem trackerRun_of (previous : Option TrackerCall) (calls : List TrackerCall) :
    ∃ snapshots, trackerRun (Tracker.of previous) calls = some snapshots ∧
      snapshots.length = calls.length ∧
      ∀ (n : Nat) (call : TrackerCall) (snapshot : Snapshot), calls[n]? = some call →
        snapshots[n]? = some snapshot →
        SnapshotOf (if n = 0 then previous else callBefore calls n) call snapshot := by
  induction calls generalizing previous with
  | nil => exact ⟨[], rfl, rfl, fun n call snapshot hcall => nomatch hcall⟩
  | cons first rest ih =>
    obtain ⟨snapshot, hupdate, hsnapshot⟩ := update_of previous first
    obtain ⟨snapshots, hrun, hlength, hrest⟩ := ih (some first)
    refine ⟨snapshot :: snapshots, ?_, by simp [hlength], ?_⟩
    · simp only [trackerRun, hupdate, hrun, Option.bind_eq_bind, Option.bind_some, Option.pure_def]
    · intro n call shown hcall hshown
      cases n with
      | zero =>
        cases hcall
        cases hshown
        exact hsnapshot
      | succ n =>
        have hbefore : (if n = 0 then some first else callBefore rest n) =
            callBefore (first :: rest) (n + 1) := by
          cases n with
          | zero => rfl
          | succ n => rfl
        rw [if_neg (Nat.succ_ne_zero n), ← hbefore]
        exact hrest n call shown hcall hshown

/-- CPU tracking depends on two adjacent calls.  Every sequence of calls has
snapshots, so no difference overflows and nothing is divided by zero, and every
snapshot is the one of its call and the call in front of it. -/
theorem trackerRun_adjacent (calls : List TrackerCall) :
    ∃ snapshots, trackerRun gwProcessMetricsTrackerInit calls = some snapshots ∧
      snapshots.length = calls.length ∧
      ∀ (n : Nat) (call : TrackerCall) (snapshot : Snapshot), calls[n]? = some call →
        snapshots[n]? = some snapshot → SnapshotOf (callBefore calls n) call snapshot := by
  obtain ⟨snapshots, hrun, hlength, hall⟩ := trackerRun_of none calls
  refine ⟨snapshots, hrun, hlength, fun n call snapshot hcall hsnapshot => ?_⟩
  have hof := hall n call snapshot hcall hsnapshot
  cases n with
  | zero => exact hof
  | succ n => exact hof

/-! ## The tracker of the sampler -/

/-- The metrics with exact numbers. -/
def Metrics.exact (metrics : Metrics) : GwProcessMetrics :=
  ⟨metrics.cpuTicks.toNat, metrics.rssKib.toInt, metrics.fdCount.toNat⟩

/-- The tracker with exact numbers. -/
def Tracker.exact (tracker : Tracker) : GwProcessMetricsTracker :=
  ⟨tracker.pid.toInt, tracker.baselineValid, tracker.previousCpuTicks.toNat,
    tracker.previousTimeNs.toInt⟩

/-- The snapshot with exact numbers. -/
def Snapshot.exact (snapshot : Snapshot) : GwProcessMetricsSnapshot :=
  ⟨snapshot.pid.toInt, snapshot.available, snapshot.cpuAvailable,
    .finite ⟨false, snapshot.cpuPercent.toNNRat⟩, snapshot.rssKib.toInt, snapshot.fdCount.toNat⟩

/-- The CPU figure in exact arithmetic. -/
def exactFigure : CpuFigure := fun deltaTicks clockTicksPerSecond deltaTimeNs =>
  .finite ⟨false, ((deltaTicks : ℚ) * 100 * 10 ^ 9 /
    (clockTicksPerSecond * deltaTimeNs)).toNNRat⟩

theorem sameBaseline_exact (tracker : Tracker) (call : TrackerCall) (metrics : Metrics) :
    tracker.exact.sameBaseline call.pid.toInt metrics.exact call.sampleTimeNs.toInt =
      tracker.sameBaseline call metrics := by
  simp only [Tracker.sameBaseline, GwProcessMetricsTracker.sameBaseline, Tracker.exact,
    Metrics.exact, Int32.toInt_inj, gt_iff_lt, Int64.lt_iff_toInt_lt, ge_iff_le,
    UInt64.le_iff_toNat_le]

theorem subInt64?_eq_some {first second delta : Int64} (h : subInt64? first second = some delta) :
    delta.toInt = first.toInt - second.toInt := by
  unfold subInt64? at h
  dsimp only at h
  split at h
  · rename_i hrange
    cases h
    exact Int64.toInt_ofInt_of_le hrange.1 hrange.2
  · cases h

/-- A percentage that is defined is the figure of the sampler. -/
theorem cpuPercent?_exact {first second : UInt64} {clockTicksPerSecond deltaTimeNs : Int64}
    {percent : ℚ} (hle : second ≤ first)
    (h : cpuPercent? (first - second) clockTicksPerSecond deltaTimeNs = some percent) :
    exactFigure (first.toNat - second.toNat) clockTicksPerSecond.toInt deltaTimeNs.toInt =
      .finite ⟨false, percent.toNNRat⟩ := by
  unfold cpuPercent? at h
  dsimp only at h
  split at h
  · cases h
  · cases h
    rw [UInt64.toNat_sub_of_le _ _ hle, exactFigure]
    norm_num

/-- Where the function is defined it is the one of the sampler, with exact numbers. -/
theorem update_exact {tracker next : Tracker} {call : TrackerCall} {snapshot : Snapshot}
    (h : gwProcessMetricsTrackerUpdate tracker call = some (next, snapshot)) :
    Gateway.gwProcessMetricsTrackerUpdate exactFigure tracker.exact call.pid.toInt
        (call.metrics.map Metrics.exact) call.sampleTimeNs.toInt call.clockTicksPerSecond.toInt =
      (next.exact, snapshot.exact) := by
  have hzero : (CDouble.finite ⟨false, (0 : ℚ).toNNRat⟩) = .zero := by
    rw [Rat.toNNRat_zero]
    rfl
  have hguard : (call.pid ≤ 0 ∨ call.sampleTimeNs ≤ 0 ∨ call.clockTicksPerSecond ≤ 0) ↔
      (call.pid.toInt ≤ 0 ∨ call.sampleTimeNs.toInt ≤ 0 ∨ call.clockTicksPerSecond.toInt ≤ 0) := by
    rw [Int32.le_iff_toInt_le, Int64.le_iff_toInt_le, Int64.le_iff_toInt_le]
    rfl
  unfold gwProcessMetricsTrackerUpdate at h
  unfold Gateway.gwProcessMetricsTrackerUpdate
  cases hmetrics : call.metrics with
  | none =>
    simp only [hmetrics] at h
    cases h
    simp only [Option.map_none, Snapshot.exact, hzero]
    rfl
  | some metrics =>
    simp only [hmetrics] at h
    simp only [Option.map_some, ← hguard, sameBaseline_exact]
    split at h
    · rename_i hrefused
      cases h
      rw [if_pos hrefused]
      simp only [Snapshot.exact, hzero]
      rfl
    · rename_i haccepted
      rw [if_neg haccepted]
      split at h
      · rename_i hsame
        obtain ⟨deltaTimeNs, hdelta, h⟩ := Option.bind_eq_some_iff.mp h
        obtain ⟨percent, hpercent, h⟩ := Option.bind_eq_some_iff.mp h
        cases h
        have hle : tracker.previousCpuTicks ≤ metrics.cpuTicks := by
          simp only [Tracker.sameBaseline, Bool.and_eq_true, decide_eq_true_eq] at hsame
          exact hsame.2
        have hfigure := cpuPercent?_exact hle hpercent
        rw [subInt64?_eq_some hdelta] at hfigure
        simp only [hsame, if_true, Snapshot.exact, Tracker.exact, Metrics.exact, hfigure]
      · rename_i hsame
        cases h
        simp only [Bool.eq_false_of_not_eq_true hsame, Bool.false_eq_true, if_false,
          Snapshot.exact, Tracker.exact, Metrics.exact, hzero]

end LearnApue.Gateway.Machine
