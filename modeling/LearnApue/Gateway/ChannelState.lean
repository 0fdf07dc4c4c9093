import LearnApue.Foundation.EventMachine
import LearnApue.Gateway.Config

set_option autoImplicit false

/-!
# Gateway: the channel state machine (`channel_state.h`, `channel_state.c`)

`gw_channel_transition` is a function from the runtime it is given to the runtime
it leaves behind together with what it returns, so that "an error leaves the
runtime unchanged" is a theorem about it and not a choice of the model.

The two run results relate a runtime to what led to it: `RuntimeInvariant` says
which counters each state allows, and the history theorem says which accepted
events the counters count.
-/

namespace LearnApue.Gateway

open LearnApue.Foundation

/-- `gw_channel_state`. -/
inductive GwChannelState where
  | disabled
  | stopped
  | starting
  | running
  | backoff
  | failed
  deriving DecidableEq, Repr, Inhabited

/-- `gw_channel_event`; `unknown` stands for the integers outside the
enumeration that the `default` branch answers. -/
inductive GwChannelEvent where
  | enable
  | disable
  | start
  | progress
  | failure
  | backoffElapsed
  | stable
  | stop
  | unknown (code : Int)
  deriving DecidableEq, Repr

/-- `gw_channel_runtime`. -/
structure GwChannelRuntime where
  state : GwChannelState
  consecutiveFailures : Nat
  totalRestarts : Nat
  backoffSec : Int
  deriving DecidableEq, Repr

/-- `gw_channel_state_string`. -/
def gwChannelStateString : GwChannelState → Bytes
  | .disabled => ascii "DISABLED"
  | .stopped => ascii "STOPPED"
  | .starting => ascii "STARTING"
  | .running => ascii "RUNNING"
  | .backoff => ascii "BACKOFF"
  | .failed => ascii "FAILED"

/-- `gw_channel_event_string`. -/
def gwChannelEventString : GwChannelEvent → Bytes
  | .enable => ascii "ENABLE"
  | .disable => ascii "DISABLE"
  | .start => ascii "START"
  | .progress => ascii "PROGRESS"
  | .failure => ascii "FAILURE"
  | .backoffElapsed => ascii "BACKOFF_ELAPSED"
  | .stable => ascii "STABLE"
  | .stop => ascii "STOP"
  | .unknown _ => ascii "UNKNOWN"

/-- `gw_channel_runtime_init`. -/
def gwChannelRuntimeInit (enabled : Bool) : GwChannelRuntime :=
  ⟨if enabled then .stopped else .disabled, 0, 0, 0⟩

/-! ## The retry delay -/

/-- The body of the loop in `calculate_backoff`. -/
def backoffStep (maximum delay : Int) : Int :=
  if delay > maximum / 2 then maximum else delay * 2

/-- The loop of `calculate_backoff`; `remaining` is `failures - step`. -/
def backoffLoop (maximum : Int) : Nat → Int → Int
  | 0, delay => delay
  | remaining + 1, delay =>
      if delay < maximum then backoffLoop maximum remaining (backoffStep maximum delay)
      else delay

/-- Every value `delay` takes in the loop, in order. -/
def backoffDelays (maximum : Int) : Nat → Int → List Int
  | 0, delay => [delay]
  | remaining + 1, delay =>
      if delay < maximum then
        delay :: backoffDelays maximum remaining (backoffStep maximum delay)
      else [delay]

/-- `calculate_backoff`. -/
def calculateBackoff (failures : Nat) (maximum : Int) : Int :=
  let delay := backoffLoop maximum (failures - 1) 1
  if delay > maximum then maximum else delay

/-! ## Transitions -/

/-- `reject_transition`. -/
def rejectTransition (runtime : GwChannelRuntime) (event : GwChannelEvent) :
    GwChannelRuntime × Except GwError Unit :=
  (runtime, .error (gwErrorSet .errValidation
    (ascii "event " ++ gwChannelEventString event ++ ascii " is invalid while channel is " ++
      gwChannelStateString runtime.state)))

/-- The failure counter after one more failure: an `unsigned int` that stops at
`UINT_MAX`. -/
def countFailure (failures : Nat) : Nat :=
  if failures < uintMax then failures + 1 else failures

/-- `handle_failure`. -/
def handleFailure (runtime : GwChannelRuntime) (policy : GwRetryPolicy) :
    GwChannelRuntime × Except GwError Unit :=
  if runtime.state ≠ .starting ∧ runtime.state ≠ .running then
    rejectTransition runtime .failure
  else
    let failures := countFailure runtime.consecutiveFailures
    if failures > policy.maxRetries.toNat then
      ({ runtime with
          consecutiveFailures := failures
          state := .failed
          backoffSec := policy.maxBackoffSec }, .ok ())
    else
      ({ runtime with
          consecutiveFailures := failures
          state := .backoff
          backoffSec := calculateBackoff failures policy.maxBackoffSec }, .ok ())

/-- `gw_channel_transition`. -/
def gwChannelTransition (runtime : GwChannelRuntime) (event : GwChannelEvent)
    (policy : GwRetryPolicy) : GwChannelRuntime × Except GwError Unit :=
  if policy.maxRetries < 0 ∨ policy.maxBackoffSec ≤ 0 then
    (runtime, .error (gwErrorSet .errArgument (ascii "retry policy is invalid")))
  else
    match event with
    | .enable =>
        if runtime.state ≠ .disabled then rejectTransition runtime event
        else ({ runtime with state := .stopped }, .ok ())
    | .disable =>
        ({ runtime with state := .disabled, consecutiveFailures := 0, backoffSec := 0 }, .ok ())
    | .start =>
        if runtime.state ≠ .stopped ∧ runtime.state ≠ .failed then rejectTransition runtime event
        else
          ({ runtime with state := .starting, consecutiveFailures := 0, backoffSec := 0 }, .ok ())
    | .progress =>
        if runtime.state ≠ .starting ∧ runtime.state ≠ .running then rejectTransition runtime event
        else ({ runtime with state := .running }, .ok ())
    | .failure => handleFailure runtime policy
    | .backoffElapsed =>
        if runtime.state ≠ .backoff ∧ runtime.state ≠ .failed then rejectTransition runtime event
        else
          ({ runtime with
              state := .starting
              backoffSec := 0
              -- `uint64_t` increment
              totalRestarts := (runtime.totalRestarts + 1) % 2 ^ 64 }, .ok ())
    | .stable =>
        if runtime.state ≠ .running then rejectTransition runtime event
        else ({ runtime with consecutiveFailures := 0, backoffSec := 0 }, .ok ())
    | .stop =>
        if runtime.state = .disabled then rejectTransition runtime event
        else
          ({ runtime with state := .stopped, consecutiveFailures := 0, backoffSec := 0 }, .ok ())
    | .unknown _ =>
        (runtime, .error (gwErrorSet .errArgument (ascii "unknown channel event")))

/-- The runtime after a sequence of calls, whatever each of them returned. -/
def channelRun (policy : GwRetryPolicy) (runtime : GwChannelRuntime)
    (events : List GwChannelEvent) : GwChannelRuntime :=
  events.foldl (fun current event => (gwChannelTransition current event policy).1) runtime

/-! ## The accepted transitions as a relation -/

/-- What an accepted event does, one constructor per branch of the source. -/
inductive ChannelStep (policy : GwRetryPolicy) :
    GwChannelRuntime → GwChannelEvent → GwChannelRuntime → Prop
  | enable {runtime : GwChannelRuntime} (h : runtime.state = .disabled) :
      ChannelStep policy runtime .enable { runtime with state := .stopped }
  | disable {runtime : GwChannelRuntime} :
      ChannelStep policy runtime .disable
        { runtime with state := .disabled, consecutiveFailures := 0, backoffSec := 0 }
  | start {runtime : GwChannelRuntime} (h : runtime.state = .stopped ∨ runtime.state = .failed) :
      ChannelStep policy runtime .start
        { runtime with state := .starting, consecutiveFailures := 0, backoffSec := 0 }
  | progress {runtime : GwChannelRuntime}
      (h : runtime.state = .starting ∨ runtime.state = .running) :
      ChannelStep policy runtime .progress { runtime with state := .running }
  | retry {runtime : GwChannelRuntime}
      (h : runtime.state = .starting ∨ runtime.state = .running)
      (hle : countFailure runtime.consecutiveFailures ≤ policy.maxRetries.toNat) :
      ChannelStep policy runtime .failure
        { runtime with
            state := .backoff
            consecutiveFailures := countFailure runtime.consecutiveFailures
            backoffSec := calculateBackoff (countFailure runtime.consecutiveFailures)
              policy.maxBackoffSec }
  | exhausted {runtime : GwChannelRuntime}
      (h : runtime.state = .starting ∨ runtime.state = .running)
      (hgt : policy.maxRetries.toNat < countFailure runtime.consecutiveFailures) :
      ChannelStep policy runtime .failure
        { runtime with
            state := .failed
            consecutiveFailures := countFailure runtime.consecutiveFailures
            backoffSec := policy.maxBackoffSec }
  | backoffElapsed {runtime : GwChannelRuntime}
      (h : runtime.state = .backoff ∨ runtime.state = .failed) :
      ChannelStep policy runtime .backoffElapsed
        { runtime with
            state := .starting
            backoffSec := 0
            totalRestarts := (runtime.totalRestarts + 1) % 2 ^ 64 }
  | stable {runtime : GwChannelRuntime} (h : runtime.state = .running) :
      ChannelStep policy runtime .stable
        { runtime with consecutiveFailures := 0, backoffSec := 0 }
  | stop {runtime : GwChannelRuntime} (h : runtime.state ≠ .disabled) :
      ChannelStep policy runtime .stop
        { runtime with state := .stopped, consecutiveFailures := 0, backoffSec := 0 }

/-- The policies `gw_channel_transition` works with. -/
def PolicyUsable (policy : GwRetryPolicy) : Prop :=
  0 ≤ policy.maxRetries ∧ 0 < policy.maxBackoffSec

theorem PolicyUsable.not_rejected {policy : GwRetryPolicy} (h : PolicyUsable policy) :
    ¬ (policy.maxRetries < 0 ∨ policy.maxBackoffSec ≤ 0) := by
  have hretries := h.1
  have hbackoff := h.2
  omega

/-- An accepted call makes exactly a step of the relation. -/
theorem gwChannelTransition_ok_iff {policy : GwRetryPolicy} (husable : PolicyUsable policy)
    {runtime next : GwChannelRuntime} {event : GwChannelEvent} :
    gwChannelTransition runtime event policy = (next, .ok ()) ↔
      ChannelStep policy runtime event next := by
  unfold gwChannelTransition
  rw [if_neg husable.not_rejected]
  constructor
  · intro h
    cases event with
    | enable =>
      by_cases hstate : runtime.state = .disabled
      · simp only [hstate, ne_eq, not_true_eq_false, if_false, Prod.mk.injEq, and_true] at h
        exact h ▸ .enable hstate
      · simp [hstate, rejectTransition] at h
    | disable =>
      simp only [Prod.mk.injEq, and_true] at h
      exact h ▸ .disable
    | start =>
      dsimp only at h
      by_cases hstate : runtime.state = .stopped ∨ runtime.state = .failed
      · rw [if_neg (by tauto)] at h
        exact (Prod.mk.inj h).1 ▸ .start hstate
      · rw [if_pos (by tauto)] at h
        simp [rejectTransition] at h
    | progress =>
      dsimp only at h
      by_cases hstate : runtime.state = .starting ∨ runtime.state = .running
      · rw [if_neg (by tauto)] at h
        exact (Prod.mk.inj h).1 ▸ .progress hstate
      · rw [if_pos (by tauto)] at h
        simp [rejectTransition] at h
    | failure =>
      by_cases hstate : runtime.state = .starting ∨ runtime.state = .running
      · simp only [handleFailure] at h
        rw [if_neg (by tauto)] at h
        by_cases hgt : policy.maxRetries.toNat < countFailure runtime.consecutiveFailures
        · rw [if_pos hgt] at h
          exact (Prod.mk.inj h).1 ▸ .exhausted hstate hgt
        · rw [if_neg hgt] at h
          exact (Prod.mk.inj h).1 ▸ .retry hstate (by omega)
      · simp only [handleFailure] at h
        rw [if_pos (by tauto)] at h
        simp [rejectTransition] at h
    | backoffElapsed =>
      dsimp only at h
      by_cases hstate : runtime.state = .backoff ∨ runtime.state = .failed
      · rw [if_neg (by tauto)] at h
        exact (Prod.mk.inj h).1 ▸ .backoffElapsed hstate
      · rw [if_pos (by tauto)] at h
        simp [rejectTransition] at h
    | stable =>
      dsimp only at h
      by_cases hstate : runtime.state = .running
      · rw [if_neg (by tauto)] at h
        exact (Prod.mk.inj h).1 ▸ .stable hstate
      · rw [if_pos (by tauto)] at h
        simp [rejectTransition] at h
    | stop =>
      dsimp only at h
      by_cases hstate : runtime.state = .disabled
      · rw [if_pos hstate] at h
        simp [rejectTransition] at h
      · rw [if_neg hstate] at h
        exact (Prod.mk.inj h).1 ▸ .stop hstate
    | unknown code => simp at h
  · intro h
    cases h with
    | enable hstate => simp [hstate]
    | disable => rfl
    | start hstate => exact if_neg (by tauto)
    | progress hstate => exact if_neg (by tauto)
    | retry hstate hle =>
      simp only [handleFailure]
      rw [if_neg (by tauto), if_neg (by omega)]
    | exhausted hstate hgt =>
      simp only [handleFailure]
      rw [if_neg (by tauto), if_pos hgt]
    | backoffElapsed hstate => exact if_neg (by tauto)
    | stable hstate => exact if_neg (by tauto)
    | stop hstate => exact if_neg hstate

/-- An error leaves the runtime as it was. -/
theorem gwChannelTransition_error {policy : GwRetryPolicy} {runtime next : GwChannelRuntime}
    {event : GwChannelEvent} {error : GwError}
    (h : gwChannelTransition runtime event policy = (next, .error error)) : next = runtime := by
  unfold gwChannelTransition at h
  by_cases hpolicy : policy.maxRetries < 0 ∨ policy.maxBackoffSec ≤ 0
  · rw [if_pos hpolicy] at h
    exact (Prod.mk.inj h).1.symm
  · rw [if_neg hpolicy] at h
    cases event with
    | failure =>
      dsimp only [handleFailure, rejectTransition] at h
      split at h
      · exact (Prod.mk.inj h).1.symm
      · split at h <;> simp at h
    | disable => simp at h
    | unknown code => exact (Prod.mk.inj h).1.symm
    | _ =>
      dsimp only [rejectTransition] at h
      split at h
      · exact (Prod.mk.inj h).1.symm
      · simp at h

/-! ## The retry schedule in closed form -/

theorem backoffLoop_eq_getLast (maximum : Int) (remaining : Nat) (delay : Int) :
    (backoffDelays maximum remaining delay).getLast? =
      some (backoffLoop maximum remaining delay) := by
  induction remaining generalizing delay with
  | zero => rfl
  | succ remaining ih =>
    unfold backoffDelays backoffLoop
    split
    · rw [List.getLast?_cons, ih]
      rfl
    · rfl

/-- One doubling stays inside the cap and doubles up to it. -/
theorem backoffStep_eq_min (maximum : Int) {delay : Int} (hpos : 0 < delay) :
    backoffStep maximum delay = min (delay * 2) maximum := by
  have hdouble : delay < delay * 2 := by linarith only [hpos]
  unfold backoffStep
  split
  · rw [min_eq_right (by omega)]
  · rw [min_eq_left (by omega)]

theorem backoffDelays_le {maximum : Int} (remaining : Nat) {delay : Int} (hpos : 0 < delay)
    (hle : delay ≤ maximum) :
    ∀ value ∈ backoffDelays maximum remaining delay, 0 < value ∧ value ≤ maximum := by
  induction remaining generalizing delay with
  | zero =>
    intro value hvalue
    rw [backoffDelays, List.mem_singleton] at hvalue
    exact hvalue ▸ ⟨hpos, hle⟩
  | succ remaining ih =>
    intro value hvalue
    rw [backoffDelays] at hvalue
    split at hvalue
    · rename_i hlt
      have hstep := backoffStep_eq_min maximum hpos
      rcases List.mem_cons.mp hvalue with rfl | hvalue
      · exact ⟨hpos, hle⟩
      · exact ih (by omega) (by omega) value hvalue
    · rw [List.mem_singleton] at hvalue
      exact hvalue ▸ ⟨hpos, hle⟩

theorem backoffLoop_eq_min {maximum : Int} (remaining : Nat) {delay : Int} (hpos : 0 < delay)
    (hle : delay ≤ maximum) :
    backoffLoop maximum remaining delay = min (delay * 2 ^ remaining) maximum := by
  induction remaining generalizing delay with
  | zero => simp [backoffLoop, hle]
  | succ remaining ih =>
    have hpow : (1 : Int) ≤ 2 ^ remaining := one_le_pow₀ (by norm_num)
    rw [backoffLoop]
    split
    · rename_i hlt
      have hstep := backoffStep_eq_min maximum hpos
      rw [ih (by omega) (by omega), hstep, pow_succ]
      rcases le_total (delay * 2) maximum with hdouble | hdouble
      · rw [min_eq_left hdouble, mul_assoc, mul_comm 2]
      · have hcapped : maximum ≤ maximum * 2 ^ remaining :=
          le_mul_of_one_le_right (by omega) hpow
        have hpast : maximum ≤ delay * (2 ^ remaining * 2) := by
          calc maximum ≤ delay * 2 := hdouble
            _ ≤ delay * 2 * 2 ^ remaining := le_mul_of_one_le_right (by omega) hpow
            _ = delay * (2 ^ remaining * 2) := by ring
        rw [min_eq_right hdouble, min_eq_right hcapped, min_eq_right hpast]
    · rename_i hnot
      have hfull : delay = maximum := by omega
      have hpast : maximum ≤ maximum * 2 ^ (remaining + 1) :=
        le_mul_of_one_le_right (by omega) (one_le_pow₀ (by norm_num))
      rw [hfull, min_eq_right hpast]

/-- The delay doubles with each failure up to the cap. -/
theorem calculateBackoff_eq_min (failures : Nat) {maximum : Int} (hpos : 0 < maximum) :
    calculateBackoff failures maximum = min (2 ^ (failures - 1)) maximum := by
  have hloop := backoffLoop_eq_min (failures - 1) one_pos (show 1 ≤ maximum by omega)
  simp only [calculateBackoff, hloop, one_mul]
  split <;> omega

/-! ## The runtime invariant -/

/-- The counters each state allows. -/
structure RuntimeInvariant (policy : GwRetryPolicy) (runtime : GwChannelRuntime) : Prop where
  idle : runtime.state = .disabled ∨ runtime.state = .stopped →
    runtime.consecutiveFailures = 0 ∧ runtime.backoffSec = 0
  active : runtime.state = .starting ∨ runtime.state = .running → runtime.backoffSec = 0
  waiting : runtime.state = .backoff →
    1 ≤ runtime.consecutiveFailures ∧
      (runtime.consecutiveFailures : Int) ≤ policy.maxRetries ∧
      runtime.backoffSec =
        min (2 ^ (runtime.consecutiveFailures - 1)) policy.maxBackoffSec
  failed : runtime.state = .failed →
    policy.maxRetries < runtime.consecutiveFailures ∧
      runtime.backoffSec = policy.maxBackoffSec

theorem countFailure_pos (failures : Nat) : 1 ≤ countFailure failures := by
  unfold countFailure uintMax
  split <;> omega

theorem runtimeInvariant_init (policy : GwRetryPolicy) (enabled : Bool) :
    RuntimeInvariant policy (gwChannelRuntimeInit enabled) := by
  cases enabled <;> constructor <;> simp [gwChannelRuntimeInit]

/-- Every accepted event keeps the invariant. -/
theorem RuntimeInvariant.step {policy : GwRetryPolicy} (husable : PolicyUsable policy)
    {runtime next : GwChannelRuntime} {event : GwChannelEvent}
    (hinv : RuntimeInvariant policy runtime) (hstep : ChannelStep policy runtime event next) :
    RuntimeInvariant policy next := by
  cases hstep with
  | enable hstate =>
    have hzero := hinv.idle (Or.inl hstate)
    constructor <;> simp [hzero]
  | disable => constructor <;> simp
  | start hstate => constructor <;> simp
  | progress hstate =>
    have hzero := hinv.active hstate
    constructor <;> simp [hzero]
  | retry hstate hle =>
    have hretries := husable.1
    have hpos := countFailure_pos runtime.consecutiveFailures
    have hdelay := calculateBackoff_eq_min (countFailure runtime.consecutiveFailures) husable.2
    constructor <;> simp only [reduceCtorEq, or_self, false_implies, forall_const]
    exact ⟨hpos, by omega, hdelay⟩
  | exhausted hstate hgt =>
    have hretries := husable.1
    constructor <;> simp only [reduceCtorEq, or_self, false_implies, forall_const, and_true]
    omega
  | backoffElapsed hstate => constructor <;> simp
  | stable hstate => constructor <;> simp [hstate]
  | stop hstate => constructor <;> simp

/-! ## Runs -/

/-- The state machine as a machine that accepts or rejects events. -/
def channelMachine (policy : GwRetryPolicy) (runtime : GwChannelRuntime)
    (event : GwChannelEvent) : Option GwChannelRuntime :=
  match gwChannelTransition runtime event policy with
  | (next, .ok _) => some next
  | (_, .error _) => none

theorem channelMachine_eq_some_iff {policy : GwRetryPolicy} (husable : PolicyUsable policy)
    {runtime next : GwChannelRuntime} {event : GwChannelEvent} :
    channelMachine policy runtime event = some next ↔ ChannelStep policy runtime event next := by
  rw [← gwChannelTransition_ok_iff husable]
  unfold channelMachine
  rcases hcall : gwChannelTransition runtime event policy with ⟨after, result⟩
  cases result with
  | ok value => simp
  | error error => simp

theorem apply_channelMachine (policy : GwRetryPolicy) (runtime : GwChannelRuntime)
    (event : GwChannelEvent) :
    EventMachine.apply (channelMachine policy) runtime event =
      (gwChannelTransition runtime event policy).1 := by
  unfold EventMachine.apply channelMachine
  rcases hcall : gwChannelTransition runtime event policy with ⟨after, result⟩
  cases result with
  | ok value => rfl
  | error error => exact (gwChannelTransition_error hcall).symm

/-- Calling `gw_channel_transition` for each event runs the machine. -/
theorem channelRun_eq_run (policy : GwRetryPolicy) (runtime : GwChannelRuntime)
    (events : List GwChannelEvent) :
    channelRun policy runtime events = EventMachine.run (channelMachine policy) runtime events := by
  unfold channelRun EventMachine.run
  congr 1
  funext current event
  exact (apply_channelMachine policy current event).symm

theorem runtimeInvariant_channelRun {policy : GwRetryPolicy} (husable : PolicyUsable policy)
    (enabled : Bool) (events : List GwChannelEvent) :
    RuntimeInvariant policy (channelRun policy (gwChannelRuntimeInit enabled) events) := by
  rw [channelRun_eq_run]
  refine EventMachine.run_induction (channelMachine policy) ?_ events
    (runtimeInvariant_init policy enabled)
  intro runtime event next hinv hstep
  exact hinv.step husable ((channelMachine_eq_some_iff husable).mp hstep)

/-- What every sequence of calls keeps: the counters each state allows, an
unchanged runtime on error, and delays inside `1 .. max_backoff_sec`. -/
theorem channelRun_schedule {policy : GwRetryPolicy} (husable : PolicyUsable policy)
    (enabled : Bool) (events : List GwChannelEvent) :
    RuntimeInvariant policy (channelRun policy (gwChannelRuntimeInit enabled) events) ∧
      (∀ runtime event next error,
        gwChannelTransition runtime event policy = (next, .error error) → next = runtime) ∧
      ∀ failures,
        (∀ value ∈ backoffDelays policy.maxBackoffSec (failures - 1) 1,
          0 < value ∧ value ≤ policy.maxBackoffSec) ∧
        (backoffDelays policy.maxBackoffSec (failures - 1) 1).getLast? =
          some (calculateBackoff failures policy.maxBackoffSec) := by
  have hpos := husable.2
  refine ⟨runtimeInvariant_channelRun husable enabled events,
    fun runtime event next error h => gwChannelTransition_error h, ?_⟩
  intro failures
  have hdelays := backoffDelays_le (failures - 1) one_pos
    (show 1 ≤ policy.maxBackoffSec by omega)
  have hlast := backoffLoop_eq_getLast policy.maxBackoffSec (failures - 1) 1
  have hle := (hdelays _ (List.mem_of_getLast? hlast)).2
  refine ⟨hdelays, ?_⟩
  rw [hlast]
  simp only [calculateBackoff]
  rw [if_neg (by omega)]

/-- A schedule that exhausts its two retries. -/
def twoRetries : GwRetryPolicy := ⟨15, 10, 60, 5, 2, 30⟩

theorem channelRun_schedule_twoRetries :
    RuntimeInvariant twoRetries (channelRun twoRetries (gwChannelRuntimeInit true)
      [.start, .failure, .backoffElapsed, .failure, .backoffElapsed, .progress, .failure]) :=
  (channelRun_schedule (show PolicyUsable twoRetries from ⟨by decide, by decide⟩) true _).1

/-! ## The counters and the history -/

/-- The events after which a failure counts from zero again. -/
def resetsFailures : GwChannelEvent → Bool
  | .start | .stop | .disable | .stable => true
  | _ => false

/-- The accepted events of a run from `gw_channel_runtime_init`. -/
def channelHistory (policy : GwRetryPolicy) (enabled : Bool) (events : List GwChannelEvent) :
    List GwChannelEvent :=
  EventMachine.history (channelMachine policy) (gwChannelRuntimeInit enabled) events

/-- The failures since the last reset. -/
def failureStreak (past : List GwChannelEvent) : Nat :=
  (EventMachine.sinceReset resetsFailures past).count .failure

/-- The counters are a function of the past. -/
structure CountersTellHistory (past : List GwChannelEvent) (runtime : GwChannelRuntime) :
    Prop where
  restarts : runtime.totalRestarts = past.count .backoffElapsed % 2 ^ 64
  failures : runtime.consecutiveFailures = min uintMax (failureStreak past)

theorem failureStreak_reset {event : GwChannelEvent} (h : resetsFailures event = true)
    (past : List GwChannelEvent) : failureStreak (past ++ [event]) = 0 := by
  rw [failureStreak, EventMachine.sinceReset_concat_of_reset h, List.count_nil]

theorem failureStreak_failure (past : List GwChannelEvent) :
    failureStreak (past ++ [.failure]) = failureStreak past + 1 := by
  rw [failureStreak, EventMachine.sinceReset_concat rfl, List.count_append]
  rfl

theorem failureStreak_other {event : GwChannelEvent} (h : resetsFailures event = false)
    (hne : event ≠ .failure) (past : List GwChannelEvent) :
    failureStreak (past ++ [event]) = failureStreak past := by
  rw [failureStreak, EventMachine.sinceReset_concat h, List.count_append,
    List.count_singleton, if_neg (by simpa using hne)]
  rfl

theorem countFailure_min (streak : Nat) :
    countFailure (min uintMax streak) = min uintMax (streak + 1) := by
  unfold countFailure
  split <;> omega

/-- One accepted event moves the counters with the history. -/
theorem CountersTellHistory.step {policy : GwRetryPolicy} {past : List GwChannelEvent}
    {runtime next : GwChannelRuntime} {event : GwChannelEvent}
    (hinv : CountersTellHistory past runtime) (hstep : ChannelStep policy runtime event next) :
    CountersTellHistory (past ++ [event]) next := by
  have hrestarts := hinv.restarts
  have hfailures := hinv.failures
  cases hstep with
  | enable hstate =>
    refine ⟨by simpa using hrestarts, ?_⟩
    rw [failureStreak_other rfl (by decide)]
    exact hfailures
  | disable =>
    refine ⟨by simpa using hrestarts, ?_⟩
    rw [failureStreak_reset rfl]
    rfl
  | start hstate =>
    refine ⟨by simpa using hrestarts, ?_⟩
    rw [failureStreak_reset rfl]
    rfl
  | progress hstate =>
    refine ⟨by simpa using hrestarts, ?_⟩
    rw [failureStreak_other rfl (by decide)]
    exact hfailures
  | retry hstate hle =>
    refine ⟨by simpa using hrestarts, ?_⟩
    rw [failureStreak_failure, ← countFailure_min, ← hfailures]
  | exhausted hstate hgt =>
    refine ⟨by simpa using hrestarts, ?_⟩
    rw [failureStreak_failure, ← countFailure_min, ← hfailures]
  | backoffElapsed hstate =>
    refine ⟨?_, ?_⟩
    · rw [List.count_append, List.count_singleton_self, hrestarts, Nat.mod_add_mod]
    · rw [failureStreak_other rfl (by decide)]
      exact hfailures
  | stable hstate =>
    refine ⟨by simpa using hrestarts, ?_⟩
    rw [failureStreak_reset rfl]
    rfl
  | stop hstate =>
    refine ⟨by simpa using hrestarts, ?_⟩
    rw [failureStreak_reset rfl]
    rfl

theorem channelRun_tells_history {policy : GwRetryPolicy} (husable : PolicyUsable policy)
    (enabled : Bool) (events : List GwChannelEvent) :
    CountersTellHistory (channelHistory policy enabled events)
      (channelRun policy (gwChannelRuntimeInit enabled) events) := by
  have hinit : CountersTellHistory [] (gwChannelRuntimeInit enabled) := by
    constructor <;> simp [gwChannelRuntimeInit, failureStreak]
  rw [channelRun_eq_run]
  refine EventMachine.history_induction (channelMachine policy) ?_ events [] _ hinit
  intro past runtime event next hinv hstep
  exact hinv.step ((channelMachine_eq_some_iff husable).mp hstep)

/-- The counters of a run count its accepted events, and a channel is given up
only after more failures in a row than the policy allows retries. -/
theorem channelRun_counters {policy : GwRetryPolicy} (husable : PolicyUsable policy)
    (enabled : Bool) (events : List GwChannelEvent) :
    (channelRun policy (gwChannelRuntimeInit enabled) events).totalRestarts =
        (channelHistory policy enabled events).count .backoffElapsed % 2 ^ 64 ∧
      (channelRun policy (gwChannelRuntimeInit enabled) events).consecutiveFailures =
        min uintMax (failureStreak (channelHistory policy enabled events)) ∧
      ((channelRun policy (gwChannelRuntimeInit enabled) events).state = .failed →
        policy.maxRetries < failureStreak (channelHistory policy enabled events)) := by
  have htells := channelRun_tells_history husable enabled events
  have hinv := runtimeInvariant_channelRun husable enabled events
  refine ⟨htells.restarts, htells.failures, ?_⟩
  intro hfailed
  have hexceeds := (hinv.failed hfailed).1
  rw [htells.failures] at hexceeds
  omega

theorem channelRun_counters_twoRetries :
    (channelRun twoRetries (gwChannelRuntimeInit true)
      [.start, .failure, .progress, .backoffElapsed, .failure]).consecutiveFailures =
    min uintMax (failureStreak (channelHistory twoRetries true
      [.start, .failure, .progress, .backoffElapsed, .failure])) :=
  (channelRun_counters (show PolicyUsable twoRetries from ⟨by decide, by decide⟩) true _).2.1

end LearnApue.Gateway
