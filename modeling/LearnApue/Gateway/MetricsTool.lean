import LearnApue.Foundation.Binary64
import LearnApue.Gateway.MetricsSampler

set_option autoImplicit false

/-!
# Gateway: the summary of `gateway-metrics` (`gateway_metrics.c`)

`sample_target` keeps running figures of one target, behind three validity
flags, and `write_summaries` prints them.  `Summarises` says what the figures are
of a whole sequence of calls, and `summaryOf` what is printed of them.

The CPU and RSS figures are computed with a `Rounding`: that of `double` in the
program.  The counters of samples are numbers: a run has at most one sample every
100 ms of one day.
-/

namespace LearnApue.Gateway.MetricsTool

open LearnApue.Foundation

/-! ## The transcription -/

/-- `metrics_target`. -/
structure MetricsTarget where
  label : Bytes
  pid : Int
  previousValid : Bool
  previousTicks : Nat
  availableSamples : Nat
  unavailableSamples : Nat
  cpuSamples : Nat
  cpuSum : ℚ
  cpuPeak : ℚ
  rssSumKib : ℚ
  rssPeakKib : Int
  fdMin : Nat
  fdMax : Nat
  resourceStatsValid : Bool
  deriving DecidableEq

/-- A target that `add_target` put into cleared options. -/
def MetricsTarget.added (label : Bytes) (pid : Int) : MetricsTarget :=
  ⟨label, pid, false, 0, 0, 0, 0, 0, 0, 0, 0, 0, 0, false⟩

/-- A call of `sample_target`: its times, and what `gw_process_metrics_read` makes
of the process. -/
structure SampleCall where
  elapsedMs : Int
  sampleDeltaMs : Int
  metrics : Option GwProcessMetrics
  deriving DecidableEq

/-- A line of the sample output. -/
inductive SampleLine where
  | unavailable (elapsedMs : Int) (label : Bytes) (pid : Int)
  | ok (elapsedMs : Int) (label : Bytes) (pid : Int) (cpuPercent : Option ℚ) (rssKib : Int)
      (fdCount : Nat)
  deriving DecidableEq

section Arithmetic

variable (rounding : Rounding)

/-- A quotient, where it is one. -/
def divide? (dividend divisor : ℚ) : Option ℚ :=
  if divisor = 0 then none else some (rounding (dividend / divisor))

/-- The resource figures of an available sample. -/
def MetricsTarget.addResources (target : MetricsTarget) (metrics : GwProcessMetrics) :
    MetricsTarget :=
  let target := { target with
    availableSamples := target.availableSamples + 1
    rssSumKib := rounding (target.rssSumKib + rounding metrics.rssKib) }
  if ¬ target.resourceStatsValid then
    { target with
      rssPeakKib := metrics.rssKib
      fdMin := metrics.fdCount
      fdMax := metrics.fdCount
      resourceStatsValid := true }
  else
    { target with
      rssPeakKib :=
        if metrics.rssKib > target.rssPeakKib then metrics.rssKib else target.rssPeakKib
      fdMin := if metrics.fdCount < target.fdMin then metrics.fdCount else target.fdMin
      fdMax := if metrics.fdCount > target.fdMax then metrics.fdCount else target.fdMax }

/-- The CPU figures of a sample with a percentage. -/
def MetricsTarget.addCpu (target : MetricsTarget) (cpuPercent : ℚ) : MetricsTarget :=
  let target := { target with
    cpuSamples := target.cpuSamples + 1
    cpuSum := rounding (target.cpuSum + cpuPercent) }
  if target.cpuSamples = 1 ∨ cpuPercent > target.cpuPeak then
    { target with cpuPeak := cpuPercent }
  else target

/-- `sample_target`: the target, the line it prints and its result, where every
quotient is one. -/
def sampleTarget (ticksPerSecond : Int) (target : MetricsTarget) (call : SampleCall) :
    Option (MetricsTarget × SampleLine × Bool) :=
  match call.metrics with
  | none =>
      some ({ target with
          previousValid := false
          unavailableSamples := target.unavailableSamples + 1 },
        .unavailable call.elapsedMs target.label target.pid, false)
  | some metrics =>
      let counted := target.addResources rounding metrics
      let line := fun cpuPercent =>
        SampleLine.ok call.elapsedMs target.label target.pid cpuPercent metrics.rssKib
          metrics.fdCount
      let finish := fun (target : MetricsTarget) =>
        { target with previousTicks := metrics.cpuTicks, previousValid := true }
      if counted.previousValid ∧ metrics.cpuTicks ≥ counted.previousTicks ∧
          call.sampleDeltaMs > 0 then do
        let deltaTicks := metrics.cpuTicks - counted.previousTicks
        let cpuPercent ← divide? rounding (rounding (rounding deltaTicks * 100000))
          (rounding (rounding ticksPerSecond * rounding call.sampleDeltaMs))
        return (finish (counted.addCpu rounding cpuPercent), line (some cpuPercent), true)
      else some (finish counted, line none, true)

/-- The target behind a sequence of calls. -/
def sampleRun (ticksPerSecond : Int) (target : MetricsTarget) :
    List SampleCall → Option MetricsTarget
  | [] => some target
  | call :: rest => do
      let (next, _, _) ← sampleTarget rounding ticksPerSecond target call
      sampleRun ticksPerSecond next rest

/-- A line of the summary. -/
structure SummaryLine where
  label : Bytes
  pid : Int
  availableSamples : Nat
  unavailableSamples : Nat
  cpuSamples : Nat
  /-- `cpu_avg_percent` and `cpu_peak_percent` -/
  cpu : Option (ℚ × ℚ)
  /-- `rss_avg_kib`, `rss_peak_kib`, `fd_min` and `fd_max` -/
  resources : Option (ℚ × Int × Nat × Nat)
  deriving DecidableEq

/-- The CPU fields of a line: nothing is printed without a CPU sample. -/
def cpuFields (target : MetricsTarget) : Option (Option (ℚ × ℚ)) :=
  if target.cpuSamples > 0 then
    (divide? rounding target.cpuSum (rounding target.cpuSamples)).map fun average =>
      some (average, target.cpuPeak)
  else some none

/-- The resource fields of a line: nothing is printed without an available sample. -/
def resourceFields (target : MetricsTarget) : Option (Option (ℚ × Int × Nat × Nat)) :=
  if target.resourceStatsValid then
    (divide? rounding target.rssSumKib (rounding target.availableSamples)).map fun average =>
      some (average, target.rssPeakKib, target.fdMin, target.fdMax)
  else some none

/-- What `write_summaries` prints of a target, where every quotient is one. -/
def summaryLine (target : MetricsTarget) : Option SummaryLine := do
  let cpu ← cpuFields rounding target
  let resources ← resourceFields rounding target
  return ⟨target.label, target.pid, target.availableSamples, target.unavailableSamples,
    target.cpuSamples, cpu, resources⟩

/-- `write_summaries`, into a stream that takes all of it. -/
def writeSummaries (targets : List MetricsTarget) : Option (List SummaryLine) :=
  targets.mapM (summaryLine rounding)

/-! ## The statistics of a whole sequence -/

/-- What was read by the available calls. -/
def readings (calls : List SampleCall) : List GwProcessMetrics :=
  calls.filterMap SampleCall.metrics

/-- The CPU percentage of a call directly behind another one: both are available,
the time between them is positive and the ticks are no fewer. -/
def percentBetween (ticksPerSecond : Int) (earlier call : SampleCall) : Option ℚ := do
  let old ← earlier.metrics
  let new ← call.metrics
  if 0 < call.sampleDeltaMs ∧ old.cpuTicks ≤ new.cpuTicks then
    some (rounding (rounding (rounding ((new.cpuTicks : ℚ) - old.cpuTicks) * 100000) /
      rounding (rounding ticksPerSecond * rounding call.sampleDeltaMs)))
  else none

/-- The CPU percentage of the call at an index. -/
def percentAt (ticksPerSecond : Int) (calls : List SampleCall) : Nat → Option ℚ
  | 0 => none
  | n + 1 => do
      let earlier ← calls[n]?
      let call ← calls[n + 1]?
      percentBetween rounding ticksPerSecond earlier call

/-- The CPU percentages of a sequence. -/
def percents (ticksPerSecond : Int) (calls : List SampleCall) : List ℚ :=
  (List.range calls.length).filterMap (percentAt rounding ticksPerSecond calls)

/-- The RSS and descriptor figures of a target are those of some readings. -/
structure ResourcesOf (readings : List GwProcessMetrics) (target : MetricsTarget) : Prop where
  available : target.availableSamples = readings.length
  statsValid : target.resourceStatsValid = true ↔ readings ≠ []
  rssSum : target.rssSumKib = rounding.sum (readings.map fun metrics => rounding metrics.rssKib)
  rssPeak : readings ≠ [] →
    IsGreatest {rss | ∃ metrics ∈ readings, metrics.rssKib = rss} target.rssPeakKib
  fdMin : readings ≠ [] →
    IsLeast {count | ∃ metrics ∈ readings, metrics.fdCount = count} target.fdMin
  fdMax : readings ≠ [] →
    IsGreatest {count | ∃ metrics ∈ readings, metrics.fdCount = count} target.fdMax

/-- The CPU figures of a target are those of some percentages. -/
structure CpuOf (percents : List ℚ) (target : MetricsTarget) : Prop where
  samples : target.cpuSamples = percents.length
  sum : target.cpuSum = rounding.sum percents
  peak : percents ≠ [] → IsGreatest {percent | ∃ p ∈ percents, p = percent} target.cpuPeak

/-- The figures of a target are those of the calls. -/
structure Summarises (ticksPerSecond : Int) (calls : List SampleCall) (target : MetricsTarget) :
    Prop where
  counted : target.availableSamples + target.unavailableSamples = calls.length
  resources : ResourcesOf rounding (readings calls) target
  cpu : CpuOf rounding (percents rounding ticksPerSecond calls) target

/-- What a target remembers of the last call. -/
structure Remembers (calls : List SampleCall) (target : MetricsTarget) : Prop where
  valid : target.previousValid = true ↔ ∃ metrics, (calls.getLast?.bind (·.metrics)) = some metrics
  ticks : ∀ metrics, calls.getLast?.bind (·.metrics) = some metrics →
    target.previousTicks = metrics.cpuTicks

/-- The row of a call, with its percentage behind an earlier one. -/
def rowOf (ticksPerSecond : Int) (label : Bytes) (pid : Int) (earlier : Option SampleCall)
    (call : SampleCall) : SampleLine :=
  match call.metrics with
  | none => .unavailable call.elapsedMs label pid
  | some metrics =>
      .ok call.elapsedMs label pid
        (earlier.bind fun earlier => percentBetween rounding ticksPerSecond earlier call)
        metrics.rssKib metrics.fdCount

/-- The CPU figures that are printed of some percentages. -/
def cpuOf (percents : List ℚ) : Option (ℚ × ℚ) :=
  percents.max?.map fun peak =>
    (rounding (rounding.sum percents / rounding percents.length), peak)

/-- The resource figures that are printed of some readings. -/
def resourcesOf (readings : List GwProcessMetrics) : Option (ℚ × Int × Nat × Nat) := do
  let rssPeak ← (readings.map (·.rssKib)).max?
  let fdMin ← (readings.map (·.fdCount)).min?
  let fdMax ← (readings.map (·.fdCount)).max?
  let rssSum := rounding.sum (readings.map fun metrics => rounding metrics.rssKib)
  return (rounding (rssSum / rounding readings.length), rssPeak, fdMin, fdMax)

/-- The line of a target that is sampled by some calls. -/
def summaryOf (ticksPerSecond : Int) (label : Bytes) (pid : Int) (calls : List SampleCall) :
    SummaryLine :=
  ⟨label, pid, (readings calls).length, calls.length - (readings calls).length,
    (percents rounding ticksPerSecond calls).length,
    cpuOf rounding (percents rounding ticksPerSecond calls),
    resourcesOf rounding (readings calls)⟩

end Arithmetic

/-! ## One more sample -/

/-- The greatest value of a list with one more item. -/
theorem isGreatest_snoc {α β : Type} [LinearOrder β] {value : α → β} {items : List α} {peak : β}
    (h : items ≠ [] → IsGreatest {b | ∃ a ∈ items, value a = b} peak) (item : α) :
    IsGreatest {b | ∃ a ∈ items ++ [item], value a = b}
      (if items = [] ∨ value item > peak then value item else peak) := by
  have hlast : item ∈ items ++ [item] := List.mem_append_right _ List.mem_cons_self
  split
  · rename_i hnew
    refine ⟨⟨item, hlast, rfl⟩, ?_⟩
    rintro _ ⟨a, ha, rfl⟩
    rcases List.mem_append.mp ha with hmem | hmem
    · have hitems := List.ne_nil_of_mem hmem
      exact ((h hitems).2 ⟨a, hmem, rfl⟩).trans (hnew.resolve_left hitems).le
    · rw [List.mem_singleton.mp hmem]
  · rename_i hold
    rw [not_or, not_lt] at hold
    obtain ⟨⟨a, ha, hpeak⟩, hbound⟩ := h hold.1
    refine ⟨⟨a, List.mem_append_left _ ha, hpeak⟩, ?_⟩
    rintro _ ⟨b, hb, rfl⟩
    rcases List.mem_append.mp hb with hmem | hmem
    · exact hbound ⟨b, hmem, rfl⟩
    · rw [List.mem_singleton.mp hmem]
      exact hold.2

/-- The least value of a list with one more item. -/
theorem isLeast_snoc {α β : Type} [LinearOrder β] {value : α → β} {items : List α} {low : β}
    (h : items ≠ [] → IsLeast {b | ∃ a ∈ items, value a = b} low) (item : α) :
    IsLeast {b | ∃ a ∈ items ++ [item], value a = b}
      (if items = [] ∨ value item < low then value item else low) :=
  @isGreatest_snoc α βᵒᵈ _ value items low h item

variable {rounding : Rounding} {target : MetricsTarget} {past : List SampleCall}
  {call : SampleCall} {metrics : GwProcessMetrics} {ticksPerSecond : Int}

theorem ResourcesOf.addResources {before : List GwProcessMetrics}
    (h : ResourcesOf rounding before target) (metrics : GwProcessMetrics) :
    ResourcesOf rounding (before ++ [metrics]) (target.addResources rounding metrics) := by
  have hne : before ++ [metrics] ≠ [] := by simp
  have hsum : rounding (target.rssSumKib + rounding metrics.rssKib) =
      rounding.sum ((before ++ [metrics]).map fun metrics => rounding metrics.rssKib) := by
    rw [h.rssSum, List.map_append, List.map_singleton, Rounding.sum_concat]
  have hpeak := isGreatest_snoc h.rssPeak metrics
  have hmin := isLeast_snoc h.fdMin metrics
  have hmax := isGreatest_snoc h.fdMax metrics
  unfold MetricsTarget.addResources
  by_cases hvalid : target.resourceStatsValid = true
  · have hbefore := h.statsValid.mp hvalid
    simp only [hbefore, false_or] at hpeak hmin hmax
    simp only [hvalid, not_true_eq_false, if_false]
    exact ⟨by simp [h.available], by simp, hsum, fun _ => hpeak, fun _ => hmin, fun _ => hmax⟩
  · have hbefore : before = [] := by
      by_contra hbefore
      exact hvalid (h.statsValid.mpr hbefore)
    simp only [hbefore, true_or, if_true] at hpeak hmin hmax
    simp only [hvalid]
    exact ⟨by simp [h.available], by simp, hsum, fun _ => hbefore ▸ hpeak, fun _ => hbefore ▸ hmin,
      fun _ => hbefore ▸ hmax⟩

theorem CpuOf.addCpu {before : List ℚ} (h : CpuOf rounding before target) (percent : ℚ) :
    CpuOf rounding (before ++ [percent]) (target.addCpu rounding percent) := by
  have hpeak := isGreatest_snoc h.peak percent
  have hfirst : target.cpuSamples + 1 = 1 ↔ before = [] := by
    rw [h.samples, Nat.add_eq_right, List.length_eq_zero_iff]
  unfold MetricsTarget.addCpu
  dsimp only
  split
  · rename_i hnew
    rw [if_pos (hnew.imp_left hfirst.mp)] at hpeak
    exact ⟨by simp [h.samples], by simp [h.sum, Rounding.sum_concat], fun _ => hpeak⟩
  · rename_i hold
    rw [if_neg fun hnew => hold (hnew.imp_left hfirst.mpr)] at hpeak
    exact ⟨by simp [h.samples], by simp [h.sum, Rounding.sum_concat], fun _ => hpeak⟩

theorem readings_snoc (past : List SampleCall) (call : SampleCall) :
    readings (past ++ [call]) = readings past ++ call.metrics.toList := by
  rw [readings, readings, List.filterMap_append]
  cases h : call.metrics <;> simp [h]

theorem percentAt_snoc {n : Nat} (h : n < past.length) (call : SampleCall) :
    percentAt rounding ticksPerSecond (past ++ [call]) n =
      percentAt rounding ticksPerSecond past n := by
  cases n with
  | zero => rfl
  | succ n =>
    rw [percentAt, percentAt, List.getElem?_append_left (by omega), List.getElem?_append_left h]

theorem percentAt_last (past : List SampleCall) (call : SampleCall) :
    percentAt rounding ticksPerSecond (past ++ [call]) past.length =
      past.getLast?.bind fun earlier => percentBetween rounding ticksPerSecond earlier call := by
  rw [List.getLast?_eq_getElem?]
  cases hlength : past.length with
  | zero => rw [List.length_eq_zero_iff.mp hlength]; rfl
  | succ n =>
    rw [percentAt, List.getElem?_append_left (by omega), ← hlength, List.getElem?_concat_length]
    simp only [hlength, Nat.add_sub_cancel]
    rfl

/-- One more call adds its percentage. -/
theorem percents_snoc (past : List SampleCall) (call : SampleCall) :
    percents rounding ticksPerSecond (past ++ [call]) =
      percents rounding ticksPerSecond past ++
        (past.getLast?.bind fun earlier =>
          percentBetween rounding ticksPerSecond earlier call).toList := by
  have hold :
      (List.range past.length).filterMap (percentAt rounding ticksPerSecond (past ++ [call])) =
        (List.range past.length).filterMap (percentAt rounding ticksPerSecond past) :=
    List.filterMap_congr fun n hn => percentAt_snoc (List.mem_range.mp hn) call
  rw [percents, percents, List.length_append, List.length_singleton, List.range_succ,
    List.filterMap_append, hold, ← percentAt_last]
  cases h : percentAt rounding ticksPerSecond (past ++ [call]) past.length <;> simp [h]

/-- The fields that only count samples or remember the last one. -/
theorem MetricsTarget.addResources_frame (target : MetricsTarget) (metrics : GwProcessMetrics) :
    (target.addResources rounding metrics).previousValid = target.previousValid ∧
      (target.addResources rounding metrics).previousTicks = target.previousTicks ∧
      (target.addResources rounding metrics).unavailableSamples = target.unavailableSamples ∧
      (target.addResources rounding metrics).cpuSamples = target.cpuSamples ∧
      (target.addResources rounding metrics).cpuSum = target.cpuSum ∧
      (target.addResources rounding metrics).cpuPeak = target.cpuPeak ∧
      (target.addResources rounding metrics).availableSamples = target.availableSamples + 1 := by
  unfold MetricsTarget.addResources
  dsimp only
  split <;> exact ⟨rfl, rfl, rfl, rfl, rfl, rfl, rfl⟩

theorem MetricsTarget.addCpu_frame (target : MetricsTarget) (percent : ℚ) :
    (target.addCpu rounding percent).availableSamples = target.availableSamples ∧
      (target.addCpu rounding percent).unavailableSamples = target.unavailableSamples ∧
      (target.addCpu rounding percent).rssSumKib = target.rssSumKib ∧
      (target.addCpu rounding percent).rssPeakKib = target.rssPeakKib ∧
      (target.addCpu rounding percent).fdMin = target.fdMin ∧
      (target.addCpu rounding percent).fdMax = target.fdMax ∧
      (target.addCpu rounding percent).resourceStatsValid = target.resourceStatsValid := by
  unfold MetricsTarget.addCpu
  dsimp only
  split <;> exact ⟨rfl, rfl, rfl, rfl, rfl, rfl, rfl⟩

theorem ResourcesOf.addCpu {all : List GwProcessMetrics} (h : ResourcesOf rounding all target)
    (percent : ℚ) : ResourcesOf rounding all (target.addCpu rounding percent) := by
  obtain ⟨havailable, -, hsum, hpeak, hmin, hmax, hvalid⟩ :=
    @MetricsTarget.addCpu_frame rounding target percent
  exact ⟨havailable ▸ h.available, hvalid ▸ h.statsValid, hsum ▸ h.rssSum, hpeak ▸ h.rssPeak,
    hmin ▸ h.fdMin, hmax ▸ h.fdMax⟩

theorem CpuOf.addResources {all : List ℚ} (h : CpuOf rounding all target)
    (metrics : GwProcessMetrics) : CpuOf rounding all (target.addResources rounding metrics) := by
  obtain ⟨-, -, -, hsamples, hsum, hpeak, -⟩ :=
    @MetricsTarget.addResources_frame rounding target metrics
  exact ⟨hsamples ▸ h.samples, hsum ▸ h.sum, hpeak ▸ h.peak⟩

theorem ResourcesOf.remember {all : List GwProcessMetrics} (h : ResourcesOf rounding all target)
    (ticks : Nat) (valid : Bool) :
    ResourcesOf rounding all { target with previousTicks := ticks, previousValid := valid } :=
  ⟨h.available, h.statsValid, h.rssSum, h.rssPeak, h.fdMin, h.fdMax⟩

theorem CpuOf.remember {all : List ℚ} (h : CpuOf rounding all target) (ticks : Nat)
    (valid : Bool) : CpuOf rounding all { target with previousTicks := ticks, previousValid := valid } :=
  ⟨h.samples, h.sum, h.peak⟩

/-- Behind the condition of the source a call has the percentage of the source, and
else it has none. -/
theorem Remembers.percent (h : Remembers past target) (hmetrics : call.metrics = some metrics)
    (ticksPerSecond : Int) :
    past.getLast?.bind (fun earlier => percentBetween rounding ticksPerSecond earlier call) =
      if target.previousValid = true ∧ metrics.cpuTicks ≥ target.previousTicks ∧
          call.sampleDeltaMs > 0 then
        some (rounding (rounding (rounding (metrics.cpuTicks - target.previousTicks : Nat) * 100000) /
          rounding (rounding ticksPerSecond * rounding call.sampleDeltaMs)))
      else none := by
  by_cases hvalid : target.previousValid = true
  · obtain ⟨old, hold⟩ := h.valid.mp hvalid
    have hticks := h.ticks old hold
    obtain ⟨earlier, hearlier, hmetricsOld⟩ := Option.bind_eq_some_iff.mp hold
    rw [hearlier, Option.bind_some, percentBetween, hmetricsOld, hmetrics]
    simp only [Option.bind_eq_bind, Option.bind_some, hticks, hvalid, true_and]
    by_cases hused : metrics.cpuTicks ≥ old.cpuTicks ∧ call.sampleDeltaMs > 0
    · rw [if_pos hused, if_pos ⟨hused.2, hused.1⟩, Nat.cast_sub hused.1]
    · rw [if_neg hused, if_neg fun hused' => hused ⟨hused'.2, hused'.1⟩]
  · rw [if_neg fun hused => hvalid hused.1]
    cases hearlier : past.getLast? with
    | none => rfl
    | some earlier =>
      cases hold : earlier.metrics with
      | none => rw [Option.bind_some, percentBetween, hold]; rfl
      | some old =>
        exact absurd (h.valid.mpr ⟨old, by rw [hearlier, Option.bind_some, hold]⟩) hvalid

theorem divide?_of_ne {dividend divisor : ℚ} (h : divisor ≠ 0) :
    divide? rounding dividend divisor = some (rounding (dividend / divisor)) := if_neg h

/-- An available call leaves its ticks. -/
theorem remembers_available (past : List SampleCall) (hmetrics : call.metrics = some metrics)
    (target : MetricsTarget) :
    Remembers (past ++ [call])
      { target with previousTicks := metrics.cpuTicks, previousValid := true } where
  valid := by simp [hmetrics]
  ticks := by
    intro last hlast
    rw [List.getLast?_concat, Option.bind_some, hmetrics] at hlast
    cases hlast
    rfl

/-- One call keeps the summary, divides by no zero and prints the row of its figures. -/
theorem sampleTarget_step (hrate : 0 < ticksPerSecond)
    (h : Summarises rounding ticksPerSecond past target) (hlast : Remembers past target)
    (call : SampleCall) :
    ∃ next, sampleTarget rounding ticksPerSecond target call =
        some (next, rowOf rounding ticksPerSecond target.label target.pid past.getLast? call,
          call.metrics.isSome) ∧
      Summarises rounding ticksPerSecond (past ++ [call]) next ∧
      Remembers (past ++ [call]) next := by
  have hcounted := h.counted
  have hlength : (past ++ [call]).length = past.length + 1 := by simp
  cases hmetrics : call.metrics with
  | none =>
    have hreadings : readings (past ++ [call]) = readings past := by
      rw [readings_snoc, hmetrics, Option.toList_none, List.append_nil]
    have hpercents : percents rounding ticksPerSecond (past ++ [call]) =
        percents rounding ticksPerSecond past := by
      have hnone : past.getLast?.bind
          (fun earlier => percentBetween rounding ticksPerSecond earlier call) = none := by
        rw [Option.bind_eq_none_iff]
        intro earlier _
        rw [percentBetween, hmetrics]
        cases earlier.metrics <;> rfl
      rw [percents_snoc, hnone, Option.toList_none, List.append_nil]
    refine ⟨_, by rw [sampleTarget, rowOf, hmetrics]; rfl, ⟨?_, ?_, ?_⟩, ?_, ?_⟩
    · rw [hlength, ← hcounted]
      exact (Nat.add_assoc _ _ _).symm
    · rw [hreadings]
      exact ⟨h.resources.available, h.resources.statsValid, h.resources.rssSum,
        h.resources.rssPeak, h.resources.fdMin, h.resources.fdMax⟩
    · rw [hpercents]
      exact ⟨h.cpu.samples, h.cpu.sum, h.cpu.peak⟩
    · simp [hmetrics]
    · simp [hmetrics]
  | some metrics =>
    obtain ⟨hvalid, hticks, hunavailable, -, -, -, havailable⟩ :=
      @MetricsTarget.addResources_frame rounding target metrics
    have hresources := h.resources.addResources metrics
    have hcpu := h.cpu.addResources metrics
    have hearlier := @Remembers.percent rounding _ _ _ _ hlast hmetrics ticksPerSecond
    have hpercent := @percents_snoc rounding ticksPerSecond past call
    rw [hearlier] at hpercent
    have hreadings := readings_snoc past call
    rw [hmetrics, Option.toList_some] at hreadings
    rw [← hreadings] at hresources
    unfold sampleTarget rowOf
    simp only [hmetrics, hvalid, hticks, hearlier]
    split
    · rename_i hused
      have hrateRounded : rounding ticksPerSecond ≠ 0 :=
        rounding.ne_zero (by exact_mod_cast hrate.ne')
      have hdeltaRounded : rounding call.sampleDeltaMs ≠ 0 :=
        rounding.ne_zero (by exact_mod_cast hused.2.2.ne')
      rw [if_pos hused, Option.toList_some] at hpercent
      rw [divide?_of_ne (rounding.ne_zero (mul_ne_zero hrateRounded hdeltaRounded))]
      generalize rounding (rounding (rounding (metrics.cpuTicks - target.previousTicks : Nat) *
        100000) / rounding (rounding ticksPerSecond * rounding call.sampleDeltaMs)) = percent
        at hpercent ⊢
      obtain ⟨havailable', hunavailable', -⟩ :=
        @MetricsTarget.addCpu_frame rounding (target.addResources rounding metrics) percent
      refine ⟨_, rfl, ⟨?_, (hresources.addCpu percent).remember _ _, ?_⟩,
        remembers_available past hmetrics _⟩
      · show ((target.addResources rounding metrics).addCpu rounding percent).availableSamples +
          ((target.addResources rounding metrics).addCpu rounding percent).unavailableSamples = _
        omega
      · rw [hpercent]
        exact (hcpu.addCpu percent).remember _ _
    · rename_i hunused
      rw [if_neg hunused, Option.toList_none, List.append_nil] at hpercent
      refine ⟨_, rfl, ⟨?_, hresources.remember _ _, ?_⟩, remembers_available past hmetrics _⟩
      · show (target.addResources rounding metrics).availableSamples +
          (target.addResources rounding metrics).unavailableSamples = _
        omega
      · rw [hpercent]
        exact hcpu.remember _ _

theorem summarises_added (label : Bytes) (pid : Int) :
    Summarises rounding ticksPerSecond [] (MetricsTarget.added label pid) ∧
      Remembers [] (MetricsTarget.added label pid) := by
  refine ⟨⟨rfl, ⟨rfl, ?_, rfl, ?_, ?_, ?_⟩, rfl, rfl, ?_⟩, ?_, ?_⟩
  all_goals simp [readings, percents, MetricsTarget.added]

theorem sampleRun_of (hrate : 0 < ticksPerSecond) (calls : List SampleCall)
    (h : Summarises rounding ticksPerSecond past target) (hlast : Remembers past target) :
    ∃ final, sampleRun rounding ticksPerSecond target calls = some final ∧
      Summarises rounding ticksPerSecond (past ++ calls) final := by
  induction calls generalizing past target with
  | nil => exact ⟨target, rfl, by rwa [List.append_nil]⟩
  | cons call rest ih =>
    obtain ⟨next, hstep, hnext, hremembers⟩ := sampleTarget_step hrate h hlast call
    obtain ⟨final, hrun, hfinal⟩ := ih hnext hremembers
    refine ⟨final, ?_, by rwa [List.append_assoc] at hfinal⟩
    rw [sampleRun, hstep]
    exact hrun

/-! ## The summary -/

theorem CpuOf.line {all : List ℚ} (h : CpuOf rounding all target) :
    cpuFields rounding target = some (cpuOf rounding all) := by
  unfold cpuFields
  by_cases hall : all = []
  · rw [h.samples, hall]
    rfl
  · have hlength := List.length_pos_iff.mpr hall
    have hpeak : all.max? = some target.cpuPeak := by
      obtain ⟨⟨percent, hmem, rfl⟩, hbound⟩ := h.peak hall
      exact List.max?_eq_some_iff.mpr ⟨hmem, fun other hother => hbound ⟨other, hother, rfl⟩⟩
    rw [h.samples, if_pos hlength,
      divide?_of_ne (rounding.ne_zero (by exact_mod_cast hlength.ne')), h.sum, cpuOf, hpeak]
    rfl

theorem ResourcesOf.line {all : List GwProcessMetrics} (h : ResourcesOf rounding all target) :
    resourceFields rounding target = some (resourcesOf rounding all) := by
  unfold resourceFields
  by_cases hvalid : target.resourceStatsValid = true
  · have hall := h.statsValid.mp hvalid
    have hlength := List.length_pos_iff.mpr hall
    have hgreatest : ∀ {β : Type} [LinearOrder β] (value : GwProcessMetrics → β) (peak : β),
        IsGreatest {b | ∃ metrics ∈ all, value metrics = b} peak →
        (all.map value).max? = some peak := by
      rintro β _ value _ ⟨⟨metrics, hmem, rfl⟩, hbound⟩
      refine List.max?_eq_some_iff.mpr ⟨List.mem_map_of_mem hmem, fun other hother => ?_⟩
      obtain ⟨later, hlater, rfl⟩ := List.mem_map.mp hother
      exact hbound ⟨later, hlater, rfl⟩
    have hleast : (all.map (·.fdCount)).min? = some target.fdMin := by
      obtain ⟨⟨metrics, hmem, hmin⟩, hbound⟩ := h.fdMin hall
      refine List.min?_eq_some_iff.mpr ⟨hmin ▸ List.mem_map_of_mem hmem, fun other hother => ?_⟩
      obtain ⟨later, hlater, rfl⟩ := List.mem_map.mp hother
      exact hbound ⟨later, hlater, rfl⟩
    rw [if_pos hvalid, h.available,
      divide?_of_ne (rounding.ne_zero (by exact_mod_cast hlength.ne')), h.rssSum, resourcesOf,
      hgreatest _ _ (h.rssPeak hall), hgreatest _ _ (h.fdMax hall), hleast]
    rfl
  · have hall : all = [] := by
      by_contra hall
      exact hvalid (h.statsValid.mpr hall)
    rw [if_neg hvalid, hall]
    rfl

/-- What is printed of a target that summarises some calls. -/
theorem Summarises.line {calls : List SampleCall}
    (h : Summarises rounding ticksPerSecond calls target) :
    summaryLine rounding target =
      some (summaryOf rounding ticksPerSecond target.label target.pid calls) := by
  have hunavailable : target.unavailableSamples = calls.length - (readings calls).length := by
    rw [← h.counted, h.resources.available, Nat.add_sub_cancel_left]
  rw [summaryLine, h.cpu.line, h.resources.line, h.resources.available, h.cpu.samples,
    hunavailable]
  rfl

theorem cpuOf_isSome {all : List ℚ} : (cpuOf rounding all).isSome = true ↔ all ≠ [] := by
  cases all <;> simp [cpuOf, List.max?]

theorem resourcesOf_isSome {all : List GwProcessMetrics} :
    (resourcesOf rounding all).isSome = true ↔ all ≠ [] := by
  cases all <;> simp [resourcesOf, List.max?, List.min?]

/-! ### Averages of exact figures -/

/-- The averages of a line are at most its peaks, also as they are printed. -/
structure SummaryLine.AveragesBelowPeaks (line : SummaryLine) : Prop where
  cpu : ∀ average peak, line.cpu = some (average, peak) →
    average ≤ peak ∧ hundredths average ≤ hundredths peak
  resources : ∀ average peak fdMin fdMax, line.resources = some (average, peak, fdMin, fdMax) →
    average ≤ peak ∧ hundredths average ≤ peak * 100

/-- An average is at most a bound of its values. -/
theorem average_le {values : List ℚ} {peak : ℚ} (h : ∀ value ∈ values, value ≤ peak)
    (hne : values ≠ []) : values.sum / values.length ≤ peak := by
  have hlength : (0 : ℚ) < values.length := by exact_mod_cast List.length_pos_iff.mpr hne
  rw [div_le_iff₀ hlength]
  have hsum := List.sum_le_card_nsmul values peak h
  rw [nsmul_eq_mul] at hsum
  linarith

theorem cpuOf_le {all : List ℚ} {average peak : ℚ} (h : cpuOf .exact all = some (average, peak)) :
    average ≤ peak := by
  obtain ⟨greatest, hpeak, heq⟩ := Option.map_eq_some_iff.mp h
  obtain ⟨haverage, rfl⟩ := Prod.mk.inj heq
  obtain ⟨hmem, hbound⟩ := List.max?_eq_some_iff.mp hpeak
  rw [← haverage, Rounding.exact_apply, Rounding.exact_apply, Rounding.exact_sum]
  exact average_le hbound (List.ne_nil_of_mem hmem)

theorem resourcesOf_le {all : List GwProcessMetrics} {average : ℚ} {peak : Int}
    {fdMin fdMax : Nat} (h : resourcesOf .exact all = some (average, peak, fdMin, fdMax)) :
    average ≤ peak := by
  obtain ⟨greatest, hpeak, hrest⟩ := Option.bind_eq_some_iff.mp h
  obtain ⟨low, -, hrest⟩ := Option.bind_eq_some_iff.mp hrest
  obtain ⟨high, -, heq⟩ := Option.bind_eq_some_iff.mp hrest
  cases heq
  obtain ⟨hmem, hbound⟩ := List.max?_eq_some_iff.mp hpeak
  have hle := @average_le (all.map fun metrics => (metrics.rssKib : ℚ)) peak (by
    intro value hvalue
    obtain ⟨metrics, hmetrics, rfl⟩ := List.mem_map.mp hvalue
    exact_mod_cast hbound _ (List.mem_map_of_mem hmetrics)) (by
      simpa using List.ne_nil_of_mem hmem)
  rw [List.length_map] at hle
  simpa only [Rounding.exact_apply, Rounding.exact_sum] using hle

theorem summaryOf_averagesBelowPeaks (label : Bytes) (pid : Int) (calls : List SampleCall) :
    (summaryOf .exact ticksPerSecond label pid calls).AveragesBelowPeaks where
  cpu _ _ heq := ⟨cpuOf_le heq, hundredths_mono (cpuOf_le heq)⟩
  resources _ peak _ _ heq :=
    ⟨resourcesOf_le heq, hundredths_intCast peak ▸ hundredths_mono (resourcesOf_le heq)⟩

/-- A target of the options and the calls that sample it. -/
structure SampledTarget where
  label : Bytes
  pid : Int
  calls : List SampleCall

/-- The target behind its calls, with exact figures. -/
def SampledTarget.run (ticksPerSecond : Int) (sampled : SampledTarget) : Option MetricsTarget :=
  sampleRun .exact ticksPerSecond (MetricsTarget.added sampled.label sampled.pid) sampled.calls

/-- The summary is the statistics of all calls, over exact rationals: no sample and no
summary divides by zero, the figures of a target are those of its calls, and no average is
above its peak. -/
theorem writeSummaries_of_runs (ticksPerSecond : Int) (hrate : 0 < ticksPerSecond)
    (sampled : List SampledTarget) :
    ∃ targets lines, sampled.mapM (SampledTarget.run ticksPerSecond) = some targets ∧
      List.Forall₂ (fun source target => Summarises .exact ticksPerSecond source.calls target)
        sampled targets ∧
      writeSummaries .exact targets = some lines ∧
      List.Forall₂ (fun source line =>
        (line.cpu.isSome = true ↔ percents .exact ticksPerSecond source.calls ≠ []) ∧
          (line.resources.isSome = true ↔ readings source.calls ≠ []) ∧
          line.AveragesBelowPeaks) sampled lines := by
  induction sampled with
  | nil => exact ⟨[], [], rfl, .nil, rfl, .nil⟩
  | cons source rest ih =>
    obtain ⟨targets, lines, hruns, hall, hlines, hbelow⟩ := ih
    obtain ⟨hadded, hremembers⟩ := @summarises_added .exact ticksPerSecond source.label source.pid
    obtain ⟨target, hrun, htarget⟩ := sampleRun_of hrate source.calls hadded hremembers
    rw [List.nil_append] at htarget
    refine ⟨target :: targets, _ :: lines, ?_, .cons htarget hall, ?_,
      .cons ⟨cpuOf_isSome, resourcesOf_isSome,
        summaryOf_averagesBelowPeaks target.label target.pid source.calls⟩ hbelow⟩
    · rw [List.mapM_cons, SampledTarget.run, hrun, hruns]
      rfl
    · rw [writeSummaries] at hlines ⊢
      rw [List.mapM_cons, htarget.line, hlines]
      rfl

/-- A target that is gone for one sample: its figure after the gap has no CPU
percentage. -/
def sampledWorker : SampledTarget where
  label := ascii "worker"
  pid := 4711
  calls := [⟨0, 0, some ⟨10, 2048, 7⟩⟩, ⟨1000, 1000, some ⟨60, 4096, 9⟩⟩, ⟨2000, 1000, none⟩,
    ⟨3000, 1000, some ⟨80, 1024, 8⟩⟩, ⟨4000, 1000, some ⟨90, 1024, 8⟩⟩]

theorem writeSummaries_of_runs_worker :
    ((sampledWorker.run 100).bind fun target => writeSummaries .exact [target]) =
        some [⟨ascii "worker", 4711, 4, 1, 2, some (30, 50), some (2048, 4096, 7, 9)⟩] ∧
      ∃ targets lines, [sampledWorker].mapM (SampledTarget.run 100) = some targets ∧
        List.Forall₂ (fun source target => Summarises .exact 100 source.calls target)
          [sampledWorker] targets ∧
        writeSummaries .exact targets = some lines ∧
        List.Forall₂ (fun source line =>
          (line.cpu.isSome = true ↔ percents .exact 100 source.calls ≠ []) ∧
            (line.resources.isSome = true ↔ readings source.calls ≠ []) ∧
            line.AveragesBelowPeaks) [sampledWorker] lines :=
  ⟨by decide +kernel, writeSummaries_of_runs 100 (by decide) [sampledWorker]⟩

end LearnApue.Gateway.MetricsTool
