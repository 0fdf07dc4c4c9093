import LearnApue.Foundation.EventMachine

set_option autoImplicit false

/-!
# Timers multiplexed by one thread

`anytimer_mt/anytimer.c`: a handler thread scans the table of the timers once a
second and calls back those that are due; other threads add, cancel and wait for
timers.  A step is one critical section.  The handler keeps `mut_job` from the
start of a scan to its end, except around a callback, so nobody else locks it in
between; a timer's own mutex is never kept from one step to the next.

A timer is known by the order of its allocation.  The log records what the threads
and the handler did; touching freed memory, freeing twice and dereferencing an empty
slot are undefined, and nothing is said about what follows.
-/

namespace LearnApue.Para

open LearnApue.Foundation

/-! ## Timers, the handler and the waiting calls -/

/-- `JOB_MAX`. -/
def jobMax : Nat := 1024

/-- `enum state`. -/
inductive TimerFlag where
  | running
  | executing
  | over
  | canceled
deriving DecidableEq, Repr

/-- The flags on which `at_waittimer` waits. -/
def TimerFlag.unfinished : TimerFlag → Bool
  | .running => true
  | .executing => true
  | .over => false
  | .canceled => false

/-- `struct timer_st`: the callback is known by the timer itself. -/
structure TimerSt where
  sec : Int
  flag : TimerFlag
  freed : Bool
deriving DecidableEq, Repr

/-- Where `thr_handler` is: asleep; in its loop with `mut_job` locked; about to call
back a timer, both mutexes unlocked; or inside the callback. -/
inductive HandlerPc where
  | sleeping
  | scanning (i : Nat)
  | committed (i me : Nat)
  | inCallback (i me : Nat)
deriving DecidableEq, Repr

/-- Where a call of `at_waittimer` is: in the wait set of its timer; woken; past its
loop; past the clearing of its slot; or returned. -/
inductive WaitStage where
  | waiting
  | woken
  | released
  | cleared
  | returned
deriving DecidableEq, Repr

/-- A call of `at_waittimer`, with its `id` and its `me`. -/
structure WaitCall where
  slot : Nat
  me : Nat
  stage : WaitStage
deriving DecidableEq, Repr

/-- The error codes of `anytimer.h`, and those of `pthread_mutex_init` and
`pthread_cond_init`. -/
inductive AtError where
  | einval
  | enospc
  | enomem
  | ebusy
  | ecanceled
  | init (err : Int)
deriving DecidableEq, Repr

/-- What is recorded.  A scan is known by its number, and a timer that is added by
the number of scans that had started. -/
inductive AtEntry where
  | scanStarted (scan : Nat)
  | scanEnded (scan : Nat)
  | added (me pos : Nat) (sec : Int) (scan : Nat)
  | addFailed (error : AtError)
  | committed (me : Nat)
  | invoked (me scan : Nat)
  | callbackReturned (me : Nat)
  | canceled (me : Nat)
  | cancelFailed (me : Option Nat) (error : AtError)
  | waitEntered (me : Nat)
  | waitFailed (error : AtError)
  | waitReturned (me : Nat)
  | freed (me : Nat)
deriving DecidableEq, Repr

/-- What must not happen. -/
inductive Violation where
  | useAfterFree (me : Nat)
  | doubleFree (me : Nat)
  | nullDereference (slot : Nat)
  /-- a slot is cleared that does not hold the timer being released -/
  | foreignClear (slot me : Nat)
deriving DecidableEq, Repr

/-- Clearing a foreign slot is defined; the others are not. -/
def Violation.undefined : Violation → Bool
  | .foreignClear _ _ => false
  | _ => true

/-- The table, the timers that were allocated, the handler, the calls of
`at_waittimer`, the number of scans that started, the log, and what went wrong. -/
structure AtState where
  job : Nat → Option Nat
  timers : List TimerSt
  handler : HandlerPc
  waits : List WaitCall
  scans : Nat
  log : List AtEntry
  violations : List Violation

/-- Before the first call. -/
def atInit : AtState := ⟨fun _ => none, [], .sleeping, [], 0, [], []⟩

namespace AtState

/-- The log grows. -/
def note (state : AtState) (entries : List AtEntry) : AtState :=
  { state with log := state.log ++ entries }

/-- Something went wrong. -/
def violate (state : AtState) (violation : Violation) : AtState :=
  { state with violations := state.violations ++ [violation] }

/-- `mut_job` is not locked. -/
def jobUnlocked (state : AtState) : Bool :=
  match state.handler with
  | .scanning _ => false
  | _ => true

/-- A step on a timer, which must not be freed. -/
def onTimer (state : AtState) (me : Nat) (next : TimerSt → AtState) : Option AtState :=
  match state.timers[me]? with
  | none => none
  | some timer => if timer.freed then some (state.violate (.useAfterFree me)) else some (next timer)

/-- A timer's new contents. -/
def setTimer (state : AtState) (me : Nat) (timer : TimerSt) : AtState :=
  { state with timers := state.timers.set me timer }

/-- A slot's new contents. -/
def setJob (state : AtState) (slot : Nat) (held : Option Nat) : AtState :=
  { state with job := Function.update state.job slot held }

end AtState

/-- A call after `pthread_cond_broadcast(&me->cond)`. -/
def WaitCall.wake (me : Nat) (call : WaitCall) : WaitCall :=
  if call.me = me ∧ call.stage = .waiting then { call with stage := .woken } else call

/-- `pthread_cond_broadcast(&me->cond)`. -/
def AtState.broadcast (state : AtState) (me : Nat) : AtState :=
  { state with waits := state.waits.map (WaitCall.wake me) }

/-! ## The handler -/

/-- The start of a scan. -/
def scanStep (state : AtState) : Option AtState :=
  match state.handler with
  | .sleeping =>
      some ({ state with handler := .scanning 0, scans := state.scans + 1 }.note
        [.scanStarted (state.scans + 1)])
  | _ => none

/-- The loop body for one slot, up to the call of the callback. -/
def visitStep (state : AtState) : Option AtState :=
  match state.handler with
  | .scanning i =>
      if i < jobMax then
        match state.job i with
        | none => some { state with handler := .scanning (i + 1) }
        | some me =>
            state.onTimer me fun timer =>
              if timer.flag = .running then
                if timer.sec - 1 ≤ 0 then
                  ({ state with handler := .committed i me }.setTimer me
                    { timer with sec := timer.sec - 1, flag := .executing }).note
                      [.committed me]
                else
                  { state with handler := .scanning (i + 1) }.setTimer me
                    { timer with sec := timer.sec - 1 }
              else { state with handler := .scanning (i + 1) }
      else none
  | _ => none

/-- `me->func(me->arg)` starts. -/
def invokeStep (state : AtState) : Option AtState :=
  match state.handler with
  | .committed i me =>
      state.onTimer me fun _ =>
        { state with handler := .inCallback i me }.note [.invoked me state.scans]
  | _ => none

/-- The callback returns: both mutexes are locked again, and the flag of the timer
that the slot holds now is set. -/
def callbackStep (state : AtState) : Option AtState :=
  match state.handler with
  | .inCallback i me =>
      match state.timers[me]? with
      | none => none
      | some timer =>
          if timer.freed then some (state.violate (.useAfterFree me))
          else
            match state.job i with
            | none => some (state.violate (.nullDereference i))
            | some held =>
                state.onTimer held fun timer =>
                  (({ state with handler := .scanning (i + 1) }.setTimer held
                    { timer with flag := .over }).broadcast me).note [.callbackReturned me]
  | _ => none

/-- The end of a scan. -/
def endScanStep (state : AtState) : Option AtState :=
  match state.handler with
  | .scanning i =>
      if i < jobMax then none
      else some ({ state with handler := .sleeping }.note [.scanEnded state.scans])
  | _ => none

/-! ## Adding and cancelling -/

/-- `get_free_pos_unlocked`. -/
def getFreePosUnlocked (state : AtState) : Option Nat :=
  (List.range jobMax).find? fun i => (state.job i).isNone

/-- What the calls of `at_addtimer` answer besides the table: `malloc`, and the
initialisation of the mutex and the condition variable. -/
structure AddAnswers where
  malloc : Bool
  init : Option Int
deriving DecidableEq, Repr

/-- `at_addtimer`; `func` tells whether there is a callback. -/
def atAddtimer (sec : Int) (func : Bool) (answers : AddAnswers) (state : AtState) :
    Option AtState :=
  if sec < 0 ∨ func = false then some (state.note [.addFailed .einval])
  else if answers.malloc = false then some (state.note [.addFailed .enomem])
  else if state.jobUnlocked then
    match getFreePosUnlocked state with
    | none => some (state.note [.addFailed .enospc])
    | some pos =>
        match answers.init with
        | some err => some (state.note [.addFailed (.init err)])
        | none =>
            some ({ state.setJob pos (some state.timers.length) with
              timers := state.timers ++ [(⟨sec, .running, false⟩ : TimerSt)] }.note
                [.added state.timers.length pos sec state.scans])
  else none

/-- The slot an id names. -/
def slotOf (id : Int) : Option Nat :=
  if id < 0 ∨ id ≥ jobMax then none else some id.toNat

/-- `at_canceltimer`. -/
def atCanceltimer (id : Int) (state : AtState) : Option AtState :=
  match slotOf id with
  | none => some (state.note [.cancelFailed none .einval])
  | some slot =>
      if state.jobUnlocked then
        match state.job slot with
        | none => some (state.note [.cancelFailed none .einval])
        | some me =>
            state.onTimer me fun timer =>
              if timer.flag = .canceled then state.note [.cancelFailed (some me) .ecanceled]
              else if timer.flag = .over ∨ timer.flag = .executing then
                state.note [.cancelFailed (some me) .ebusy]
              else
                ((state.setTimer me { timer with flag := .canceled }).broadcast me).note
                  [.canceled me]
      else none

/-! ## Waiting -/

/-- The test of the loop of `at_waittimer`. -/
def waitTest (timer : TimerSt) : WaitStage :=
  if timer.flag.unfinished then .waiting else .released

/-- A call of `at_waittimer`, up to its first wait or the end of its loop. -/
def atWaittimer (id : Int) (state : AtState) : Option AtState :=
  match slotOf id with
  | none => some (state.note [.waitFailed .einval])
  | some slot =>
      if state.jobUnlocked then
        match state.job slot with
        | none => some (state.note [.waitFailed .einval])
        | some me =>
            state.onTimer me fun timer =>
              { state with waits := state.waits ++ [(⟨slot, me, waitTest timer⟩ : WaitCall)] }.note
                [.waitEntered me]
      else none

/-- A call reaches another stage. -/
def AtState.setStage (state : AtState) (index : Nat) (call : WaitCall) (stage : WaitStage) :
    AtState :=
  { state with waits := state.waits.set index { call with stage := stage } }

/-- A call whose stage this is. -/
def AtState.callAt (state : AtState) (index : Nat) (stage : WaitStage) : Option WaitCall :=
  (state.waits[index]?).filter fun call => call.stage = stage

/-- A call leaves the wait set for no reason. -/
def spuriousStep (index : Nat) (state : AtState) : Option AtState :=
  match state.callAt index .waiting with
  | none => none
  | some call => some (state.setStage index call .woken)

/-- A woken call locks the timer again and tests its flag. -/
def resumeStep (index : Nat) (state : AtState) : Option AtState :=
  match state.callAt index .woken with
  | none => none
  | some call =>
      state.onTimer call.me fun timer => state.setStage index call (waitTest timer)

/-- `job[id] = NULL` under `mut_job`. -/
def clearStep (index : Nat) (state : AtState) : Option AtState :=
  match state.callAt index .released with
  | none => none
  | some call =>
      if state.jobUnlocked then
        let next := (state.setJob call.slot none).setStage index call .cleared
        some (if state.job call.slot = some call.me then next
          else next.violate (.foreignClear call.slot call.me))
      else none

/-- The timer is destroyed and freed, and the call returns zero. -/
def freeStep (index : Nat) (state : AtState) : Option AtState :=
  match state.callAt index .cleared with
  | none => none
  | some call =>
      match state.timers[call.me]? with
      | none => none
      | some timer =>
          if timer.freed then some (state.violate (.doubleFree call.me))
          else
            some (((state.setTimer call.me { timer with freed := true }).setStage index call
              .returned).note [.freed call.me, .waitReturned call.me])

/-! ## Runs -/

/-- What can happen next. -/
inductive AtEvent where
  | scan
  | visit
  | invoke
  | callbackReturn
  | endScan
  | add (sec : Int) (func : Bool) (answers : AddAnswers)
  | cancel (id : Int)
  | wait (id : Int)
  | spurious (index : Nat)
  | resume (index : Nat)
  | clear (index : Nat)
  | free (index : Nat)
deriving DecidableEq, Repr

/-- One critical section, when the locks it needs are free. -/
def atStep (state : AtState) (event : AtEvent) : Option AtState :=
  if state.violations.any Violation.undefined then none
  else
    match event with
    | .scan => scanStep state
    | .visit => visitStep state
    | .invoke => invokeStep state
    | .callbackReturn => callbackStep state
    | .endScan => endScanStep state
    | .add sec func answers => atAddtimer sec func answers state
    | .cancel id => atCanceltimer id state
    | .wait id => atWaittimer id state
    | .spurious index => spuriousStep index state
    | .resume index => resumeStep index state
    | .clear index => clearStep index state
    | .free index => freeStep index state

/-- The state after a sequence of events; an event that is not possible does not
happen. -/
def atRun (state : AtState) (events : List AtEvent) : AtState :=
  EventMachine.run atStep state events

end LearnApue.Para
