import LearnApue.Foundation.CInt
import LearnApue.Gateway.WorkerAttempt

set_option autoImplicit false

/-!
# Gateway: the arithmetic of deadlines

`timeout_elapsed` borrows a second for its nanoseconds, `make_deadline` carries one,
`deadline_reached` only compares and `stop_timeout_ms` saturates.  The definitions in
this module have no result where an operation on `time_t`, `long` or `int` overflows.
They agree with exact arithmetic as far as the seconds fit `time_t`; of the clocks that
count up from zero only the last `INT_MAX` milliseconds of `time_t` do not.
-/

namespace LearnApue.Gateway

open LearnApue.Foundation

/-! ## Times with any `time_t` for their seconds -/

/-- The values of `time_t` and of `long`. -/
def InTime (value : Int) : Prop := -2 ^ 63 ≤ value ∧ value < 2 ^ 63

instance (value : Int) : Decidable (InTime value) := inferInstanceAs (Decidable (_ ∧ _))

/-- An exact result, where it is a `time_t`. -/
def toTime? (exact : Int) : Option Int := if InTime exact then some exact else none

/-- A normalised `struct timespec`. -/
structure TimeValue where
  sec : Int
  nsec : Int
  secFits : InTime sec
  nsecNonneg : 0 ≤ nsec
  nsecFits : nsec < 1000000000

/-- The time in nanoseconds. -/
def TimeValue.nanoseconds (time : TimeValue) : Int := time.sec * 1000000000 + time.nsec

/-- The time of a clock that counts up from zero. -/
def Timespec.toTimeValue (time : Timespec) : TimeValue where
  sec := time.sec
  nsec := time.nsec
  secFits := ⟨by have h := time.secNonneg; omega, time.secFits⟩
  nsecNonneg := time.nsecNonneg
  nsecFits := time.nsecFits

theorem nanoseconds_toTimeValue (time : Timespec) :
    time.toTimeValue.nanoseconds = time.nanoseconds := rfl

/-! ## The transcription -/

/-- The comparison at the end of `timeout_elapsed`. -/
def laterThan (seconds nanoseconds timeoutSec : Int) : Bool :=
  seconds > timeoutSec || (seconds = timeoutSec && nanoseconds ≥ 0)

/-- `timeout_elapsed`. -/
def timeoutElapsed? (start : TimeValue) (clock : Option TimeValue) (timeoutSec : Int) :
    Option Bool :=
  match clock with
  | none => some false
  | some now => do
      let seconds ← toTime? (now.sec - start.sec)
      let nanoseconds ← toTime? (now.nsec - start.nsec)
      if nanoseconds < 0 then
        let seconds ← toTime? (seconds - 1)
        let nanoseconds ← toTime? (nanoseconds + 1000000000)
        return laterThan seconds nanoseconds timeoutSec
      else return laterThan seconds nanoseconds timeoutSec

/-- `make_deadline`; a failed clock read leaves zero. -/
def makeDeadline? (clock : Option TimeValue) (timeoutMs : Int) : Option (Int × Int) := do
  let start := (clock.map fun now => (now.sec, now.nsec)).getD (0, 0)
  let sec ← toTime? (start.1 + timeoutMs.tdiv 1000)
  let additional ← toTime? (timeoutMs.tmod 1000 * 1000000)
  let nsec ← toTime? (start.2 + additional)
  if nsec ≥ 1000000000 then
    let sec ← toTime? (sec + 1)
    let nsec ← toTime? (nsec - 1000000000)
    return (sec, nsec)
  else return (sec, nsec)

/-- `deadline_reached`. -/
def deadlinePassed (clock : Option TimeValue) (deadline : Int × Int) : Bool :=
  match clock with
  | none => true
  | some now => now.sec > deadline.1 || (now.sec = deadline.1 && now.nsec ≥ deadline.2)

/-- `stop_timeout_ms`. -/
def stopTimeoutMs? (config : GwConfig) : Option Int :=
  if config.defaults.stopTimeoutSec > intMax / 1000 then some intMax
  else toInt? (config.defaults.stopTimeoutSec * 1000)

/-! ## Exactness -/

theorem toTime?_eq_some {exact : Int} (h : InTime exact) : toTime? exact = some exact := if_pos h

theorem inTime_of_abs_lt {value : Int} (hlow : -2000000000 ≤ value) (hhigh : value ≤ 2000000000) :
    InTime value := by
  unfold InTime
  omega

/-- With normalised nanoseconds the comparison is one of nanoseconds. -/
theorem laterThan_eq {seconds nanoseconds : Int} (timeoutSec : Int) (hlow : 0 ≤ nanoseconds)
    (hhigh : nanoseconds < 1000000000) :
    laterThan seconds nanoseconds timeoutSec =
      decide (timeoutSec * 1000000000 ≤ seconds * 1000000000 + nanoseconds) := by
  unfold laterThan
  rw [Bool.eq_iff_iff]
  simp only [Bool.or_eq_true, Bool.and_eq_true, decide_eq_true_eq]
  omega

/-- `timeout_elapsed` compares nanoseconds, as far as its subtractions are defined. -/
theorem timeoutElapsed?_of_fits {start now : TimeValue} (timeoutSec : Int)
    (hfits : InTime (now.sec - start.sec))
    (hless : now.nsec < start.nsec → InTime (now.sec - start.sec - 1)) :
    timeoutElapsed? start (some now) timeoutSec =
      some (decide (timeoutSec * 1000000000 ≤ now.nanoseconds - start.nanoseconds)) := by
  have hstart := start.nsecNonneg
  have hstartFits := start.nsecFits
  have hnow := now.nsecNonneg
  have hnowFits := now.nsecFits
  have hnanos : InTime (now.nsec - start.nsec) := inTime_of_abs_lt (by omega) (by omega)
  unfold timeoutElapsed? TimeValue.nanoseconds
  simp only [toTime?_eq_some hfits, toTime?_eq_some hnanos, Option.bind_eq_bind, Option.bind_some]
  by_cases hborrow : now.nsec - start.nsec < 0
  · have hmore : InTime (now.nsec - start.nsec + 1000000000) :=
      inTime_of_abs_lt (by omega) (by omega)
    simp only [if_pos hborrow, toTime?_eq_some (hless (by omega)), toTime?_eq_some hmore,
      Option.bind_some]
    rw [laterThan_eq timeoutSec (by omega) (by omega)]
    refine congrArg some (decide_eq_decide.mpr ?_)
    omega
  · simp only [if_neg hborrow]
    rw [laterThan_eq timeoutSec (by omega) (by omega)]
    refine congrArg some (decide_eq_decide.mpr ?_)
    omega

/-- From a time on, `timeout_elapsed` is exact as far as the seconds are a `time_t`. -/
theorem timeoutElapsed?_eq {start now : TimeValue} (timeoutSec : Int)
    (hle : start.nanoseconds ≤ now.nanoseconds) (hfits : InTime (now.sec - start.sec)) :
    timeoutElapsed? start (some now) timeoutSec =
      some (decide (timeoutSec * 1000000000 ≤ now.nanoseconds - start.nanoseconds)) := by
  refine timeoutElapsed?_of_fits timeoutSec hfits fun hborrow => ?_
  have hnow := now.nsecNonneg
  have hstartFits := start.nsecFits
  unfold TimeValue.nanoseconds at hle
  unfold InTime at *
  omega

/-- The seconds of the deadline of a timeout. -/
def deadlineSec (start : TimeValue) (timeoutMs : Int) : Int :=
  (start.nanoseconds + timeoutMs * 1000000) / 1000000000

/-- `make_deadline` yields the normalised time of the deadline, as far as its seconds
are a `time_t`. -/
theorem makeDeadline?_eq {start : TimeValue} {timeoutMs : Int} (hnonneg : 0 ≤ timeoutMs)
    (hfits : InTime (deadlineSec start timeoutMs)) :
    ∃ deadline : TimeValue,
      makeDeadline? (some start) timeoutMs = some (deadline.sec, deadline.nsec) ∧
      deadline.nanoseconds = start.nanoseconds + timeoutMs * 1000000 := by
  have hstart := start.nsecNonneg
  have hstartFits := start.nsecFits
  have hsecLow := start.secFits.1
  have hdiv : timeoutMs.tdiv 1000 = timeoutMs / 1000 := Int.tdiv_eq_ediv_of_nonneg hnonneg
  have hmod : timeoutMs.tmod 1000 = timeoutMs % 1000 := Int.tmod_eq_emod_of_nonneg hnonneg
  unfold deadlineSec TimeValue.nanoseconds at hfits
  have hsec : InTime (start.sec + timeoutMs / 1000) := by
    unfold InTime at *
    omega
  have hadditional : InTime (timeoutMs % 1000 * 1000000) :=
    inTime_of_abs_lt (by omega) (by omega)
  have hnsec : InTime (start.nsec + timeoutMs % 1000 * 1000000) :=
    inTime_of_abs_lt (by omega) (by omega)
  unfold makeDeadline?
  simp only [Option.map_some, Option.getD_some, hdiv, hmod, toTime?_eq_some hsec,
    toTime?_eq_some hadditional, toTime?_eq_some hnsec, Option.bind_eq_bind, Option.bind_some]
  by_cases hcarry : start.nsec + timeoutMs % 1000 * 1000000 ≥ 1000000000
  · have hnext : InTime (start.sec + timeoutMs / 1000 + 1) := by
      unfold InTime at *
      omega
    have hrest : InTime (start.nsec + timeoutMs % 1000 * 1000000 - 1000000000) :=
      inTime_of_abs_lt (by omega) (by omega)
    simp only [if_pos hcarry, toTime?_eq_some hnext, toTime?_eq_some hrest, Option.bind_some]
    refine ⟨⟨_, _, hnext, by omega, by omega⟩, rfl, ?_⟩
    unfold TimeValue.nanoseconds
    dsimp only
    omega
  · simp only [if_neg hcarry]
    refine ⟨⟨_, _, hsec, by omega, by omega⟩, rfl, ?_⟩
    unfold TimeValue.nanoseconds
    dsimp only
    omega

/-- `deadline_reached` compares nanoseconds. -/
theorem deadlinePassed_iff (now deadline : TimeValue) :
    deadlinePassed (some now) (deadline.sec, deadline.nsec) = true ↔
      deadline.nanoseconds ≤ now.nanoseconds := by
  have hnow := now.nsecNonneg
  have hnowFits := now.nsecFits
  have hdeadline := deadline.nsecNonneg
  have hdeadlineFits := deadline.nsecFits
  unfold deadlinePassed TimeValue.nanoseconds
  simp only [Bool.or_eq_true, Bool.and_eq_true, decide_eq_true_eq]
  omega

/-- `stop_timeout_ms` saturates. -/
theorem stopTimeoutMs?_eq {config : GwConfig} (hpos : 0 < config.defaults.stopTimeoutSec) :
    stopTimeoutMs? config = some (min intMax (1000 * config.defaults.stopTimeoutSec)) := by
  unfold stopTimeoutMs? intMax
  split
  · rw [min_eq_left (by omega)]
  · have hint : InInt (config.defaults.stopTimeoutSec * 1000) := by
      unfold InInt intMin intMax
      omega
    rw [toInt?_eq_some hint, min_eq_right (by omega), mul_comm]

theorem stopTimeoutMs?_eq_stopTimeoutMs {config : GwConfig}
    (hpos : 0 < config.defaults.stopTimeoutSec) :
    stopTimeoutMs? config = some (stopTimeoutMs config) := by
  rw [stopTimeoutMs?_eq hpos, stopTimeoutMs, intMax]
  split
  · rw [min_eq_left (by omega)]
  · rw [min_eq_right (by omega), mul_comm]

/-! ## The clocks of the gateway -/

/-- Between two times that count up from zero `timeout_elapsed` never overflows. -/
theorem timeoutElapsed?_toTimeValue (start : Timespec) (clock : ClockAnswer) (timeoutSec : Int) :
    timeoutElapsed? start.toTimeValue (clock.map Timespec.toTimeValue) timeoutSec =
      some (timeoutElapsed start clock timeoutSec) := by
  cases clock with
  | none => rfl
  | some now =>
    have hstart := start.secNonneg
    have hstartFits := start.secFits
    have hnow := now.secNonneg
    have hnowFits := now.secFits
    have hfits : InTime (now.sec - start.sec) := by
      unfold InTime
      omega
    have hless : InTime (now.sec - start.sec - 1) := by
      unfold InTime
      omega
    rw [Option.map_some, timeoutElapsed?_of_fits timeoutSec hfits fun _ => hless]
    refine congrArg some (Bool.eq_iff_iff.mpr ?_)
    rw [decide_eq_true_eq, timeoutElapsed, elapsed_iff, nanoseconds_toTimeValue,
      nanoseconds_toTimeValue]
    omega

/-- Where the seconds of the deadline are a `time_t`, the exact deadline is the one that
is made. -/
theorem makeDeadline?_toTimeValue {start : Timespec} {timeoutMs : Int} (hnonneg : 0 ≤ timeoutMs)
    (hfits : InTime (deadlineSec start.toTimeValue timeoutMs)) :
    makeDeadline? (some start.toTimeValue) timeoutMs = some (makeDeadline (some start) timeoutMs) := by
  obtain ⟨deadline, hmake, hnanos⟩ := makeDeadline?_eq hnonneg hfits
  rw [hmake, Option.some.injEq]
  have hstart := start.nsecNonneg
  have hstartFits := start.nsecFits
  have hlow := deadline.nsecNonneg
  have hhigh := deadline.nsecFits
  have hdiv : timeoutMs.tdiv 1000 = timeoutMs / 1000 := Int.tdiv_eq_ediv_of_nonneg hnonneg
  have hmod : timeoutMs.tmod 1000 = timeoutMs % 1000 := Int.tmod_eq_emod_of_nonneg hnonneg
  rw [nanoseconds_toTimeValue] at hnanos
  unfold TimeValue.nanoseconds Timespec.nanoseconds at hnanos
  unfold makeDeadline
  simp only [Option.map_some, Option.getD_some, hdiv, hmod]
  split
  · exact Prod.ext (by dsimp only; omega) (by dsimp only; omega)
  · exact Prod.ext (by dsimp only; omega) (by dsimp only; omega)

/-! ## Escalation -/

theorem killGroup_notMem_poll (process : GwProcess) (answer : WaitAnswer) (pid : Int)
    (signal : StopSignal) :
    SystemCall.killGroup pid signal ∉ (gwProcessPollExit process answer).calls := by
  unfold gwProcessPollExit
  split
  · simp
  · split
    · simp
    · cases answer with
      | none => simp
      | status status => simp
      | failed errno =>
        dsimp only
        split <;> simp

/-- A kill behind a poll was sent by what follows the poll. -/
theorem rest_of_killGroup {process : GwProcess} {answer : WaitAnswer} {calls : List SystemCall}
    {rest : GwProcess → List SystemCall → Option (ProcessReply Unit)} {reply : ProcessReply Unit}
    {call : SystemCall} (h : afterPoll (gwProcessPollExit process answer) calls rest = some reply)
    (hcalls : call ∉ calls) (hpoll : call ∉ (gwProcessPollExit process answer).calls)
    (hcall : call ∈ reply.calls) :
    ∃ later earlier, rest later earlier = some reply ∧ call ∉ earlier := by
  have hnot : call ∉ calls ++ (gwProcessPollExit process answer).calls := by
    simp [hcalls, hpoll]
  unfold afterPoll at h
  split at h
  · cases h
    exact absurd hcall hnot
  · cases h
    exact absurd hcall hnot
  · exact ⟨_, _, h, hnot⟩

/-- The loop of a stop sends `SIGKILL` behind the first turn whose clock reached the
deadline. -/
theorem stopLoop_sigkill {answers : StopAnswers} {deadline : Int × Int}
    {rounds : List (ClockAnswer × WaitAnswer)} {process : GwProcess} {calls : List SystemCall}
    {reply : ProcessReply Unit} {pid : Int}
    (h : stopLoop answers deadline rounds process calls = some reply)
    (hcalls : SystemCall.killGroup pid .sigkill ∉ calls)
    (hkill : SystemCall.killGroup pid .sigkill ∈ reply.calls) :
    ∃ before clock wait after, rounds = before ++ (clock, wait) :: after ∧
      deadlineReached clock deadline = true ∧
      ∀ round ∈ before, deadlineReached round.1 deadline = false := by
  induction rounds generalizing process calls with
  | nil => cases h
  | cons round rest ih =>
    obtain ⟨clock, wait⟩ := round
    rw [stopLoop] at h
    split at h
    · rename_i hreached
      exact ⟨[], clock, wait, rest, rfl, hreached, fun _ h => absurd h List.not_mem_nil⟩
    · rename_i hreached
      have hpoll := killGroup_notMem_poll process wait pid .sigkill
      obtain ⟨later, earlier, hrest, hnot⟩ := rest_of_killGroup h hcalls hpoll hkill
      obtain ⟨before, last, lastWait, after, rfl, hlast, hbefore⟩ := ih hrest hnot
      refine ⟨(clock, wait) :: before, last, lastWait, after, rfl, hlast, ?_⟩
      rintro other (_ | ⟨_, hother⟩)
      · exact Bool.eq_false_iff.mpr hreached
      · exact hbefore other hother

/-- A stop that sends `SIGKILL` passed its first checks: the loop sent it. -/
theorem gwProcessStop_sigkill {process : GwProcess} {timeoutMs : Int} {answers : StopAnswers}
    {reply : ProcessReply Unit} {pid : Int} (h : gwProcessStop process timeoutMs answers = some reply)
    (hkill : SystemCall.killGroup pid .sigkill ∈ reply.calls) :
    0 ≤ timeoutMs ∧
    stopLoop answers (makeDeadline answers.deadlineClock timeoutMs) answers.rounds process
      [.killGroup process.pid .sigterm] = some reply := by
  unfold gwProcessStop at h
  split at h
  · cases h
    cases hkill
  · rename_i hnonneg
    split at h
    · cases h
      cases hkill
    · split at h
      · cases h
        cases hkill
      · split at h
        · cases h
          simp at hkill
        · exact ⟨not_lt.mp hnonneg, h⟩

/-- Where the clock works and the seconds of the deadline are a `time_t`, a stop sends
`SIGKILL` behind the first turn that begins with the whole timeout over. -/
theorem sigkill_after_timeout {process : GwProcess} {timeoutMs : Int} {answers : StopAnswers}
    {start : Timespec} {reply : ProcessReply Unit} {pid : Int}
    (h : gwProcessStop process timeoutMs answers = some reply)
    (hclock : answers.deadlineClock = some start)
    (hrounds : ∀ round ∈ answers.rounds, round.1 ≠ none)
    (hfits : InTime (deadlineSec start.toTimeValue timeoutMs))
    (hkill : SystemCall.killGroup pid .sigkill ∈ reply.calls) :
    ∃ before now wait after, answers.rounds = before ++ (some now, wait) :: after ∧
      timeoutMs * 1000000 ≤ now.nanoseconds - start.nanoseconds ∧
      ∀ round ∈ before, ∀ earlier, round.1 = some earlier →
        earlier.nanoseconds - start.nanoseconds < timeoutMs * 1000000 := by
  obtain ⟨hnonneg, hloop⟩ := gwProcessStop_sigkill h hkill
  obtain ⟨before, clock, wait, after, hsplit, hreached, hbefore⟩ :=
    stopLoop_sigkill hloop (by simp) hkill
  obtain ⟨deadline, hmake, hnanos⟩ := makeDeadline?_eq hnonneg hfits
  have hdeadline : makeDeadline answers.deadlineClock timeoutMs = (deadline.sec, deadline.nsec) := by
    rw [hclock]
    exact Option.some.inj ((makeDeadline?_toTimeValue hnonneg hfits).symm.trans hmake)
  rw [hdeadline] at hreached hbefore
  rw [nanoseconds_toTimeValue] at hnanos
  have hpassed : ∀ now : Timespec, deadlineReached (some now) (deadline.sec, deadline.nsec) = true ↔
      deadline.nanoseconds ≤ now.nanoseconds := fun now =>
    deadlinePassed_iff now.toTimeValue deadline
  cases clock with
  | none => exact absurd rfl (hrounds (none, wait) (by rw [hsplit]; simp))
  | some now =>
    refine ⟨before, now, wait, after, hsplit, ?_, fun round hround earlier hearlier => ?_⟩
    · have hle := (hpassed now).mp hreached
      omega
    · have hnot := hbefore round hround
      rw [hearlier] at hnot
      have hlt : ¬ deadline.nanoseconds ≤ earlier.nanoseconds := fun hle => by
        rw [(hpassed earlier).mpr hle] at hnot
        cases hnot
      omega

/-! ## Exactness of all four -/

/-- The arithmetic of deadlines is exact, as far as seconds are a `time_t`. -/
theorem deadlineArithmetic_exact :
    (∀ (start now : TimeValue) (timeoutSec : Int), start.nanoseconds ≤ now.nanoseconds →
      InTime (now.sec - start.sec) →
      timeoutElapsed? start (some now) timeoutSec =
        some (decide (timeoutSec * 1000000000 ≤ now.nanoseconds - start.nanoseconds))) ∧
    (∀ (start : TimeValue) (timeoutMs : Int), 0 ≤ timeoutMs →
      InTime (deadlineSec start timeoutMs) →
      ∃ deadline : TimeValue,
        makeDeadline? (some start) timeoutMs = some (deadline.sec, deadline.nsec) ∧
        ∀ now : TimeValue, deadlinePassed (some now) (deadline.sec, deadline.nsec) = true ↔
          timeoutMs * 1000000 ≤ now.nanoseconds - start.nanoseconds) ∧
    (∀ (process : GwProcess) (timeoutMs : Int) (answers : StopAnswers) (start : Timespec)
      (reply : ProcessReply Unit) (pid : Int),
      gwProcessStop process timeoutMs answers = some reply → answers.deadlineClock = some start →
      (∀ round ∈ answers.rounds, round.1 ≠ none) →
      InTime (deadlineSec start.toTimeValue timeoutMs) →
      SystemCall.killGroup pid .sigkill ∈ reply.calls →
      ∃ before now wait after, answers.rounds = before ++ (some now, wait) :: after ∧
        timeoutMs * 1000000 ≤ now.nanoseconds - start.nanoseconds ∧
        ∀ round ∈ before, ∀ earlier, round.1 = some earlier →
          earlier.nanoseconds - start.nanoseconds < timeoutMs * 1000000) ∧
    (∀ config : GwConfig, 0 < config.defaults.stopTimeoutSec →
      stopTimeoutMs? config = some (min intMax (1000 * config.defaults.stopTimeoutSec))) := by
  refine ⟨fun _ _ timeoutSec hle hfits => timeoutElapsed?_eq timeoutSec hle hfits, ?_,
    fun _ _ _ _ _ _ h hclock hrounds hfits hkill =>
      sigkill_after_timeout h hclock hrounds hfits hkill,
    fun _ hpos => stopTimeoutMs?_eq hpos⟩
  intro start timeoutMs hnonneg hfits
  obtain ⟨deadline, hmake, hnanos⟩ := makeDeadline?_eq hnonneg hfits
  refine ⟨deadline, hmake, fun now => ?_⟩
  rw [deadlinePassed_iff, hnanos]
  omega

/-- Four seconds less a nanosecond; a millisecond that carries; a worker that is killed
at its third turn; a timeout that saturates. -/
theorem deadlineArithmetic_exact_samples :
    timeoutElapsed? ⟨5, 1, by decide, by decide, by decide⟩
      (some ⟨9, 0, by decide, by decide, by decide⟩) 4 = some false ∧
    (∃ deadline : TimeValue,
      makeDeadline? (some ⟨5, 999999999, by decide, by decide, by decide⟩) 1001 =
        some (deadline.sec, deadline.nsec)) ∧
    (∃ before now wait after,
      [((some ⟨5, 0, by decide, by decide, by decide, by decide⟩ : ClockAnswer), WaitAnswer.none),
        (some ⟨5, 30000000, by decide, by decide, by decide, by decide⟩, .none)] =
          before ++ (some now, wait) :: after ∧ 30 * 1000000 ≤ Timespec.nanoseconds now - 5000000000) ∧
    stopTimeoutMs? { gwConfigInit with
      defaults := { gwConfigInit.defaults with stopTimeoutSec := 2147484 } } = some 2147483647 := by
  obtain ⟨helapsed, hdeadline, hstop, hsaturates⟩ := deadlineArithmetic_exact
  refine ⟨helapsed ⟨5, 1, _, _, _⟩ ⟨9, 0, _, _, _⟩ 4 (by decide) (by decide), ?_, ?_,
    hsaturates _ (by decide)⟩
  · obtain ⟨deadline, hmake, -⟩ :=
      hdeadline ⟨5, 999999999, by decide, by decide, by decide⟩ 1001 (by decide) (by decide)
    exact ⟨deadline, hmake⟩
  · obtain ⟨before, now, wait, after, hsplit, hpassed, -⟩ := hstop ⟨77, 3, 5, true, false, 0⟩ 30
      ⟨none, some ⟨5, 0, by decide, by decide, by decide, by decide⟩,
        [(some ⟨5, 0, by decide, by decide, by decide, by decide⟩, .none),
          (some ⟨5, 30000000, by decide, by decide, by decide, by decide⟩, .none)],
        .none, none, [.status 9]⟩
      ⟨5, 0, by decide, by decide, by decide, by decide⟩ _ 77 rfl rfl (by simp) (by decide) (by decide)
    exact ⟨before, now, wait, after, hsplit, hpassed⟩

/-- At the end of `time_t` a deadline one second later has no seconds. -/
theorem makeDeadline?_overflow :
    ¬ ∃ deadline : TimeValue,
      makeDeadline? (some ⟨9223372036854775807, 0, by decide, by decide, by decide⟩) 1000 =
        some (deadline.sec, deadline.nsec) := by
  have hnone : makeDeadline? (some ⟨9223372036854775807, 0, by decide, by decide, by decide⟩) 1000 =
      none := by decide
  rw [hnone]
  rintro ⟨deadline, h⟩
  cases h

end LearnApue.Gateway
