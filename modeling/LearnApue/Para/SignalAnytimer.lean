import LearnApue.Para.AnytimerScans

set_option autoImplicit false

/-!
# Timers multiplexed by a signal handler

`signal/anytimer/anytimer.c`: one thread of control adds, cancels and releases timers,
and the handler of `SIGALRM` scans the table once a second and calls back what is due.
The handler interrupts the program between any two accesses to the table, and nothing
is locked.  A callback runs inside the handler and may itself add, cancel and release
timers; `SIGALRM` is blocked until the handler returns.

A timer is known by the order of its allocation.  Touching freed memory, freeing twice
and dereferencing an empty slot are undefined.
-/

namespace LearnApue.Para.SignalAnytimer

open LearnApue.Foundation LearnApue.Foundation.EventMachine

/-! ## The table, the program and the handler -/

/-- `enum state`. -/
inductive Flag where
  | running
  | over
  | canceled
deriving DecidableEq, Repr

/-- `struct timer_st`: the callback is known by the timer itself. -/
structure TimerSt where
  sec : Int
  flag : Flag
  freed : Bool
deriving DecidableEq, Repr

/-- Where the handler is: not running; in its loop; inside the callback of the timer in
slot `i`; or in the `pause()` of that callback, waiting for a timer that runs, where no
alarm can come. -/
inductive Handler where
  | idle
  | scanning (i : Nat)
  | inCallback (i : Nat)
  | hung (i : Nat)
deriving DecidableEq, Repr

/-- The scan in progress has not reached the slot. -/
def Handler.ahead (pos : Nat) : Handler → Bool
  | .idle => false
  | .scanning i => decide (i ≤ pos)
  | .inCallback i => decide (i < pos)
  | .hung i => decide (i < pos)

/-- Where the program is: outside of every call, or at its next access to the table. -/
inductive Pc where
  | idle
  /-- the loop of `get_free_pos`; `malloc` tells whether there is memory -/
  | finding (sec : Int) (malloc : Bool) (i : Nat)
  /-- `job[pos] = me` -/
  | storing (sec : Int) (pos : Nat)
  /-- `if (job[id]->flag == canceled)` -/
  | testingCanceled (id : Nat)
  /-- `if (job[id]->flag == over)` -/
  | testingOver (id : Nat)
  /-- `job[id]->flag = canceled` -/
  | canceling (id : Nat)
  /-- `me = job[id]` -/
  | loading (id : Nat)
  /-- `while (me->flag == running)` -/
  | waiting (id me : Nat)
  /-- The loop goes on and `pause()` is not yet called. -/
  | beforePause (id me : Nat)
  | pausing (id me : Nat)
  /-- `job[id] = NULL` -/
  | clearing (id me : Nat)
  /-- `free(me)` -/
  | freeing (me : Nat)
deriving DecidableEq, Repr

/-- The slot that the call of the program named. -/
def Pc.slot : Pc → Option Nat
  | .testingCanceled id => some id
  | .testingOver id => some id
  | .canceling id => some id
  | .loading id => some id
  | .waiting id _ => some id
  | .beforePause id _ => some id
  | .pausing id _ => some id
  | .clearing id _ => some id
  | _ => none

/-- What is recorded.  An added timer comes with the number of scans that had passed
its slot, a call of its function with the number of the scan. -/
inductive Entry where
  | added (me pos : Nat) (sec : Int) (base : Nat)
  | failed (error : AtError)
  | fired (me scan : Nat)
  | canceled (me : Nat)
  | freed (me : Nat)
deriving DecidableEq, Repr

/-- `job`, the timers that were allocated, whether `module_load` has run, the handler,
the program, the number of scans that started, the log, and what went wrong. -/
structure State where
  job : Nat → Option Nat
  timers : List TimerSt
  inited : Bool
  handler : Handler
  pc : Pc
  scans : Nat
  log : List Entry
  violations : List Violation

/-- Before the first call. -/
def start : State := ⟨fun _ => none, [], false, .idle, .idle, 0, [], []⟩

namespace State

def note (s : State) (entry : Entry) : State := { s with log := s.log ++ [entry] }

def violate (s : State) (violation : Violation) : State :=
  { s with violations := s.violations ++ [violation] }

def goto (s : State) (pc : Pc) : State := { s with pc := pc }

/-- A call of the program returns an error. -/
def refuse (s : State) (error : AtError) : State := (s.goto .idle).note (.failed error)

/-- An access to a timer through its pointer. -/
def deref (s : State) (me : Nat) (next : TimerSt → State) : State :=
  match s.timers[me]? with
  | none => s
  | some timer => if timer.freed then s.violate (.useAfterFree me) else next timer

/-- An access to a timer through its slot. -/
def derefSlot (s : State) (id : Nat) (next : Nat → TimerSt → State) : State :=
  match s.job id with
  | none => s.violate (.nullDereference id)
  | some me => s.deref me (next me)

def setTimer (s : State) (me : Nat) (timer : TimerSt) : State :=
  { s with timers := s.timers.set me timer }

/-- The scans that have passed a slot. -/
def passed (s : State) (pos : Nat) : Nat :=
  if s.handler.ahead pos then s.scans - 1 else s.scans

/-- `get_free_pos`. -/
def getFreePos (s : State) : Option Nat :=
  (List.range jobMax).find? fun i => (s.job i).isNone

/-- A timer with its fields filled, stored to a slot: the return of `at_addtimer`. -/
def addTimer (s : State) (sec : Int) (pos : Nat) : State :=
  { s with
    job := Function.update s.job pos (some s.timers.length)
    timers := s.timers ++ [(⟨sec, .running, false⟩ : TimerSt)] }.note
      (.added s.timers.length pos sec (s.passed pos))

/-- `flag = canceled` and the return of `at_canceltimer`. -/
def cancelTimer (s : State) (me : Nat) (timer : TimerSt) : State :=
  (s.setTimer me { timer with flag := .canceled }).note (.canceled me)

/-- `job[id] = NULL`. -/
def clearSlot (s : State) (id : Nat) : State :=
  { s with job := Function.update s.job id none }

/-- `free(me)`. -/
def freeTimer (s : State) (me : Nat) : State :=
  match s.timers[me]? with
  | none => s
  | some timer =>
      if timer.freed then s.violate (.doubleFree me)
      else (s.setTimer me { timer with freed := true }).note (.freed me)

end State

/-! ## The program -/

/-- `at_addtimer` up to its search; the first call of all loads the module. -/
def enterAdd (s : State) (sec : Int) (func malloc : Bool) : State :=
  let loaded : State := { s with inited := true }
  if sec < 0 ∨ func = false then loaded.refuse .einval else loaded.goto (.finding sec malloc 0)

/-- The range check and the check for an empty slot of a call that takes an `id`. -/
def enterId (s : State) (id : Int) (next : Nat → Pc) : State :=
  match slotOf id with
  | none => s.refuse .einval
  | some slot => if (s.job slot).isNone then s.refuse .einval else s.goto (next slot)

/-- The next access of the program to the table. -/
def advance (s : State) : Option State :=
  match s.pc with
  | .idle => none
  | .finding sec malloc i =>
      some (if i < jobMax then
        if (s.job i).isNone then
          if malloc then s.goto (.storing sec i) else s.refuse .enomem
        else s.goto (.finding sec malloc (i + 1))
      else s.refuse .enospc)
  | .storing sec pos => some ((s.addTimer sec pos).goto .idle)
  | .testingCanceled id =>
      some (s.derefSlot id fun _ timer =>
        if timer.flag = .canceled then s.refuse .ecanceled else s.goto (.testingOver id))
  | .testingOver id =>
      some (s.derefSlot id fun _ timer =>
        if timer.flag = .over then s.refuse .ebusy else s.goto (.canceling id))
  | .canceling id =>
      some (s.derefSlot id fun me timer => (s.cancelTimer me timer).goto .idle)
  | .loading id =>
      some (match s.job id with
        | none => s.violate (.nullDereference id)
        | some me => s.goto (.waiting id me))
  | .waiting id me =>
      some (s.deref me fun timer =>
        s.goto (if timer.flag = .running then .beforePause id me else .clearing id me))
  | .beforePause id me => some (s.goto (.pausing id me))
  | .pausing _ _ => none
  | .clearing id me => some ((s.clearSlot id).goto (.freeing me))
  | .freeing me => some ((s.freeTimer me).goto .idle)

/-! ## The handler and its callbacks -/

/-- `SIGALRM` arrives. -/
def alarm (s : State) : Option State :=
  if s.inited then
    match s.handler with
    | .idle => some { s with handler := .scanning 0, scans := s.scans + 1 }
    | _ => none
  else none

/-- `pause()` returns once a handler has run. -/
def Pc.wake : Pc → Pc
  | .pausing id me => .waiting id me
  | pc => pc

/-- The next slot of the loop of `alrm_handler`, or its end. -/
def visit (s : State) : Option State :=
  match s.handler with
  | .scanning i =>
      some (if i < jobMax then
        match s.job i with
        | none => { s with handler := .scanning (i + 1) }
        | some me =>
            s.deref me fun timer =>
              if timer.flag = .running then
                if timer.sec - 1 ≤ 0 then
                  ({ s with handler := .inCallback i }.setTimer me
                    { timer with sec := timer.sec - 1, flag := .over }).note (.fired me s.scans)
                else
                  { s with handler := .scanning (i + 1) }.setTimer me
                    { timer with sec := timer.sec - 1 }
              else { s with handler := .scanning (i + 1) }
      else { s with handler := .idle, pc := s.pc.wake })
  | _ => none

/-- A step of the callback of the timer in a slot. -/
def duringCallback (s : State) (next : Nat → State) : Option State :=
  match s.handler with
  | .inCallback i => some (next i)
  | _ => none

/-- `at_addtimer` in a callback: nothing interrupts it. -/
def callbackAdd (s : State) (sec : Int) (func malloc : Bool) : State :=
  if sec < 0 ∨ func = false then s.note (.failed .einval)
  else
    match s.getFreePos with
    | none => s.note (.failed .enospc)
    | some pos => if malloc then s.addTimer sec pos else s.note (.failed .enomem)

/-- `at_canceltimer` in a callback. -/
def callbackCancel (s : State) (id : Int) : State :=
  match (slotOf id).bind s.job with
  | none => s.note (.failed .einval)
  | some me =>
      s.deref me fun timer =>
        if timer.flag = .canceled then s.note (.failed .ecanceled)
        else if timer.flag = .over then s.note (.failed .ebusy)
        else s.cancelTimer me timer

/-- `at_waitttimer` in a callback. -/
def callbackWait (s : State) (id : Int) (own : Nat) : State :=
  match slotOf id with
  | none => s.note (.failed .einval)
  | some slot =>
      match s.job slot with
      | none => s.note (.failed .einval)
      | some me =>
          s.deref me fun timer =>
            if timer.flag = .running then { s with handler := .hung own }
            else (s.clearSlot slot).freeTimer me

/-- What can happen next: calls and steps of the program, the alarm and the steps of its
handler, and the calls of a callback. -/
inductive Event where
  | add (sec : Int) (func malloc : Bool)
  | cancel (id : Int)
  | wait (id : Int)
  | advance
  | alarm
  | visit
  | callbackAdd (sec : Int) (func malloc : Bool)
  | callbackCancel (id : Int)
  | callbackWait (id : Int)
  | callbackReturn
deriving DecidableEq, Repr

/-- A step of the program, which runs only while the handler does not. -/
def program (s : State) (next : Option State) : Option State :=
  if s.handler = .idle then next else none

/-- A call of the program starts. -/
def enter (s : State) (next : State) : Option State :=
  program s (if s.pc = .idle then some next else none)

def step (s : State) (event : Event) : Option State :=
  if s.violations ≠ [] then none
  else
    match event with
    | .add sec func malloc => enter s (enterAdd s sec func malloc)
    | .cancel id => enter s (enterId s id .testingCanceled)
    | .wait id => enter s (enterId s id .loading)
    | .advance => program s (advance s)
    | .alarm => alarm s
    | .visit => visit s
    | .callbackAdd sec func malloc => duringCallback s fun _ => callbackAdd s sec func malloc
    | .callbackCancel id => duringCallback s fun _ => callbackCancel s id
    | .callbackWait id => duringCallback s (callbackWait s id)
    | .callbackReturn => duringCallback s fun i => { s with handler := .scanning (i + 1) }

/-! ## What a callback must leave alone -/

/-- A callback does not add to the slot that the program is about to store to, and does
not release the timer in the slot that the program is at. -/
def interruptSafe (s : State) : Event → Bool
  | .callbackAdd _ _ _ =>
      match s.pc with
      | .storing _ pos => s.getFreePos ≠ some pos
      | _ => true
  | .callbackWait id =>
      match s.pc.slot with
      | some slot => slotOf id ≠ some slot
      | none => true
  | _ => true

/-- Every step of a run is safe to interrupt the program with. -/
def InterruptSafe (events : List Event) : Prop :=
  Meets step (fun s event => interruptSafe s event = true) start events

instance (events : List Event) : Decidable (InterruptSafe events) :=
  inferInstanceAs (Decidable (Meets _ _ _ _))

/-! ## The invariant -/

/-- The timer that an entry is about. -/
def Entry.timer : Entry → Option Nat
  | .added me _ _ _ => some me
  | .failed _ => none
  | .fired me _ => some me
  | .canceled me => some me
  | .freed me => some me

/-- What may follow a log: a timer is new when it is added, it is called back once,
never after it was cancelled or released, and it is released once, after it was called
back or cancelled. -/
def Follows (before : List Entry) : Entry → Prop
  | .added me _ _ _ => ∀ entry ∈ before, entry.timer ≠ some me
  | .failed _ => True
  | .fired me _ =>
      (∃ pos sec base, .added me pos sec base ∈ before) ∧ (∀ k, .fired me k ∉ before) ∧
        .canceled me ∉ before ∧ .freed me ∉ before
  | .canceled me => .freed me ∉ before
  | .freed me => .freed me ∉ before ∧ ((∃ k, .fired me k ∈ before) ∨ .canceled me ∈ before)

/-- What an added timer has left while it runs, and when it was called back. -/
structure OnTime (s : State) (me : Nat) (timer : TimerSt) (pos : Nat) (sec : Int) (base : Nat) :
    Prop where
  running : timer.flag = .running →
    timer.freed = false ∧ s.job pos = some me ∧ base ≤ s.passed pos ∧
      timer.sec = sec - (s.passed pos - base : Nat) ∧ s.passed pos < dueScan sec base
  fired : ∀ k, .fired me k ∈ s.log → k = dueScan sec base

/-- A timer against the log. -/
structure TimerOk (s : State) (me : Nat) (timer : TimerSt) : Prop where
  added : ∃ pos sec base, .added me pos sec base ∈ s.log
  running : timer.flag = .running → (∀ k, .fired me k ∉ s.log) ∧ .canceled me ∉ s.log
  stopped : timer.flag ≠ .running → (∃ k, .fired me k ∈ s.log) ∨ .canceled me ∈ s.log
  freed : .freed me ∈ s.log ↔ timer.freed = true
  onTime : ∀ pos sec base, .added me pos sec base ∈ s.log → OnTime s me timer pos sec base

/-- The table, the timers and the log. -/
structure Core (s : State) : Prop where
  defined : s.violations = []
  slot : ∀ i me, s.job i = some me →
    i < jobMax ∧ ∃ timer, s.timers[me]? = some timer ∧ timer.freed = false
  once : ∀ i j me, s.job i = some me → s.job j = some me → i = j
  held : ∀ me timer, s.timers[me]? = some timer → timer.freed = false →
    (∃ i, s.job i = some me) ∨ s.pc = .freeing me
  started : s.handler ≠ .idle → 1 ≤ s.scans
  timers : ∀ me timer, s.timers[me]? = some timer → TimerOk s me timer
  fresh : ∀ entry ∈ s.log, ∀ me, entry.timer = some me → me < s.timers.length
  justified : Justified Follows s.log

/-- What the program relies on at its next access. -/
def PcOk (s : State) : Pc → Prop
  | .idle => True
  | .finding _ _ _ => True
  | .storing _ pos => pos < jobMax ∧ s.job pos = none
  | .testingCanceled id => ∃ me, s.job id = some me
  | .testingOver id => ∃ me, s.job id = some me
  | .canceling id => ∃ me, s.job id = some me
  | .loading id => ∃ me, s.job id = some me
  | .waiting id me => s.job id = some me
  | .beforePause id me => s.job id = some me
  | .pausing id me => s.job id = some me
  | .clearing id me =>
      s.job id = some me ∧ ∀ timer, s.timers[me]? = some timer → timer.flag ≠ .running
  | .freeing me =>
      (∀ i, s.job i ≠ some me) ∧
        ∃ timer, s.timers[me]? = some timer ∧ timer.freed = false ∧ timer.flag ≠ .running

/-- The invariant of the timers, the program and the handler. -/
structure Inv (s : State) : Prop where
  core : Core s
  pc : PcOk s s.pc

theorem start_inv : Inv start := by
  refine ⟨⟨rfl, ?_, ?_, ?_, ?_, ?_, ?_, justified_nil _⟩, trivial⟩
  · intro i me h
    cases h
  · intro i j me h
    cases h
  · intro me timer h
    cases h
  · intro h
    exact absurd rfl h
  · intro me timer h
    cases h
  · intro entry h
    cases h

section Core

variable {s next : State}

/-- A timer that nothing happened to. -/
theorem TimerOk.of_same {me : Nat} {timer : TimerSt} (h : TimerOk s me timer)
    (hlog : ∀ entry, entry.timer = some me → (entry ∈ next.log ↔ entry ∈ s.log))
    (hjob : timer.flag = .running → ∀ pos, s.job pos = some me →
      next.job pos = some me ∧ next.passed pos = s.passed pos) : TimerOk next me timer := by
  have hfired : ∀ k, .fired me k ∈ next.log ↔ .fired me k ∈ s.log := fun k => hlog _ rfl
  have hcanceled : .canceled me ∈ next.log ↔ .canceled me ∈ s.log := hlog _ rfl
  have hadded : ∀ pos sec base, .added me pos sec base ∈ next.log ↔ .added me pos sec base ∈ s.log :=
    fun pos sec base => hlog _ rfl
  obtain ⟨pos, sec, base, hown⟩ := h.added
  refine ⟨⟨pos, sec, base, (hadded _ _ _).mpr hown⟩, ?_, ?_, ?_, ?_⟩
  · intro hrunning
    exact ⟨fun k => mt (hfired k).mp ((h.running hrunning).1 k),
      mt hcanceled.mp (h.running hrunning).2⟩
  · intro hstopped
    exact (h.stopped hstopped).imp (fun ⟨k, hk⟩ => ⟨k, (hfired k).mpr hk⟩) hcanceled.mpr
  · exact (hlog _ rfl).trans h.freed
  · intro pos sec base hown
    have htime := h.onTime pos sec base ((hadded _ _ _).mp hown)
    refine ⟨fun hrunning => ?_, fun k hk => htime.fired k ((hfired k).mp hk)⟩
    obtain ⟨hfreed, hslot, hle, hsec, hlt⟩ := htime.running hrunning
    obtain ⟨hslot', hpassed⟩ := hjob hrunning pos hslot
    exact ⟨hfreed, hslot', by rw [hpassed]; exact hle, by rw [hpassed]; exact hsec,
      by rw [hpassed]; exact hlt⟩

/-- A step that changes neither the table nor a timer. -/
theorem Core.of_same (h : Core s) (hviolations : next.violations = s.violations)
    (hjob : next.job = s.job) (htimers : next.timers = s.timers)
    (hlog : next.log = s.log ∨ ∃ error, next.log = s.log ++ [.failed error])
    (hstarted : next.handler ≠ .idle → 1 ≤ next.scans)
    (hheld : ∀ me, s.pc = .freeing me → next.pc = .freeing me)
    (hpassed : ∀ me timer pos, s.timers[me]? = some timer → timer.flag = .running →
      s.job pos = some me → next.passed pos = s.passed pos) : Core next := by
  have hmem : ∀ entry me, entry.timer = some me → (entry ∈ next.log ↔ entry ∈ s.log) := by
    intro entry me hentry
    rcases hlog with hlog | ⟨error, hlog⟩
    · rw [hlog]
    · rw [hlog, List.mem_append, List.mem_singleton]
      refine ⟨fun h => h.resolve_right ?_, Or.inl⟩
      rintro rfl
      cases hentry
  refine ⟨hviolations.trans h.defined, ?_, ?_, ?_, hstarted, ?_, ?_, ?_⟩
  · rw [hjob, htimers]
    exact h.slot
  · rw [hjob]
    exact h.once
  · rw [hjob, htimers]
    exact fun me timer ht hfreed => (h.held me timer ht hfreed).imp_right (hheld me)
  · rw [htimers]
    intro me timer ht
    exact (h.timers me timer ht).of_same (fun entry hentry => hmem entry me hentry)
      fun hrunning pos hslot => ⟨by rw [hjob]; exact hslot, hpassed me timer pos ht hrunning hslot⟩
  · intro entry hentry me hme
    rw [htimers]
    exact h.fresh entry ((hmem entry me hme).mp hentry) me hme
  · rcases hlog with hlog | ⟨error, hlog⟩
    · rw [hlog]
      exact h.justified
    · rw [hlog]
      exact h.justified.concat trivial

/-- A step that changes one timer and notes it; other timers keep their slots. -/
theorem Core.of_timer (h : Core s) {me : Nat} {timer : TimerSt} (changed : TimerSt)
    (entries : List Entry)
    (ht : s.timers[me]? = some timer) (hviolations : next.violations = s.violations)
    (hback : ∀ i other, next.job i = some other → s.job i = some other)
    (hforth : ∀ i other, other ≠ me → s.job i = some other → next.job i = some other)
    (htimers : next.timers = s.timers.set me changed)
    (hlog : next.log = s.log ++ entries) (hentries : ∀ entry ∈ entries, entry.timer = some me)
    (hstarted : next.handler ≠ .idle → 1 ≤ next.scans)
    (hslot : ∀ i, next.job i = some me → changed.freed = false)
    (hheld : changed.freed = false → (∃ i, next.job i = some me) ∨ next.pc = .freeing me)
    (hpc : ∀ other, other ≠ me → s.pc = .freeing other → next.pc = .freeing other)
    (hpassed : ∀ other pos, other ≠ me → s.job pos = some other → next.passed pos = s.passed pos)
    (hown : TimerOk next me changed) (hjustified : Justified Follows next.log) : Core next := by
  have hlt := (List.getElem?_eq_some_iff.mp ht).1
  have hget : ∀ other, next.timers[other]? =
      if other = me then some changed else s.timers[other]? := by
    intro other
    rw [htimers]
    by_cases hother : other = me
    · subst hother
      rw [if_pos rfl, List.getElem?_set_self hlt]
    · rw [if_neg hother, List.getElem?_set_ne (Ne.symm hother)]
  have hmem : ∀ entry other, other ≠ me → entry.timer = some other →
      (entry ∈ next.log ↔ entry ∈ s.log) := by
    intro entry other hother hentry
    rw [hlog, List.mem_append]
    refine ⟨fun h => h.resolve_right fun hnew => ?_, Or.inl⟩
    rw [hentries entry hnew, Option.some.injEq] at hentry
    exact hother hentry.symm
  refine ⟨hviolations.trans h.defined, ?_, ?_, ?_, hstarted, ?_, ?_, hjustified⟩
  · intro i other hi
    obtain ⟨hlt, timer', ht', hfreed'⟩ := h.slot i other (hback i other hi)
    refine ⟨hlt, ?_⟩
    rw [hget]
    by_cases hother : other = me
    · subst hother
      exact ⟨changed, if_pos rfl, hslot i hi⟩
    · exact ⟨timer', (if_neg hother).trans ht', hfreed'⟩
  · exact fun i j other hi hj => h.once i j other (hback i other hi) (hback j other hj)
  · intro other timer' ht' hunfreed
    rw [hget] at ht'
    by_cases hother : other = me
    · subst hother
      rw [if_pos rfl, Option.some.injEq] at ht'
      exact hheld (ht' ▸ hunfreed)
    · rw [if_neg hother] at ht'
      exact (h.held other timer' ht' hunfreed).imp
        (fun ⟨i, hi⟩ => ⟨i, hforth i other hother hi⟩) (hpc other hother)
  · intro other timer' ht'
    rw [hget] at ht'
    by_cases hother : other = me
    · subst hother
      rw [if_pos rfl, Option.some.injEq] at ht'
      subst ht'
      exact hown
    · rw [if_neg hother] at ht'
      exact (h.timers other timer' ht').of_same (fun entry hentry => hmem entry other hother hentry)
        fun _ pos hi => ⟨hforth pos other hother hi, hpassed other pos hother hi⟩
  · intro entry hentry other hother
    rw [htimers, List.length_set]
    rw [hlog, List.mem_append] at hentry
    rcases hentry with hold | hnew
    · exact h.fresh entry hold other hother
    · rw [hentries entry hnew, Option.some.injEq] at hother
      exact hother ▸ hlt

/-- The search of a free slot. -/
theorem getFreePos_eq_some {pos : Nat} (h : s.getFreePos = some pos) :
    pos < jobMax ∧ s.job pos = none := by
  unfold State.getFreePos at h
  refine ⟨List.mem_range.mp (List.mem_of_find?_eq_some h), ?_⟩
  simpa using List.find?_some h

/-- A timer in the table was allocated. -/
theorem Core.timer_lt (h : Core s) {i me : Nat} (hslot : s.job i = some me) :
    me < s.timers.length := by
  obtain ⟨-, timer, ht, -⟩ := h.slot i me hslot
  exact (List.getElem?_eq_some_iff.mp ht).1

section AddTimer

variable {sec : Int} {pos : Nat}

theorem addTimer_job (i : Nat) : (s.addTimer sec pos).job i =
    if i = pos then some s.timers.length else s.job i := Function.update_apply _ _ _ _

theorem addTimer_timers {me : Nat} (hme : me < s.timers.length) :
    (s.addTimer sec pos).timers[me]? = s.timers[me]? := List.getElem?_append_left hme

theorem addTimer_timers_length :
    (s.addTimer sec pos).timers.length = s.timers.length + 1 := List.length_append

theorem addTimer_timers_last : (s.addTimer sec pos).timers[s.timers.length]? =
    some ⟨sec, .running, false⟩ := List.getElem?_concat_length

theorem mem_addTimer_log (entry : Entry) : entry ∈ (s.addTimer sec pos).log ↔
    entry ∈ s.log ∨ entry = .added s.timers.length pos sec (s.passed pos) := by
  show entry ∈ s.log ++ [_] ↔ _
  rw [List.mem_append, List.mem_singleton]

/-- The other slots keep their timers. -/
theorem addTimer_keeps {i me : Nat} (hempty : s.job pos = none) (hi : s.job i = some me) :
    (s.addTimer sec pos).job i = some me := by
  rw [addTimer_job, if_neg ?_]
  · exact hi
  · rintro rfl
    rw [hempty] at hi
    cases hi

/-- A timer after an addition is an old one or the new one. -/
theorem addTimer_timers_cases {me : Nat} {timer : TimerSt}
    (ht : (s.addTimer sec pos).timers[me]? = some timer) :
    s.timers[me]? = some timer ∧ me < s.timers.length ∨
      me = s.timers.length ∧ timer = ⟨sec, .running, false⟩ := by
  have hle := (List.getElem?_eq_some_iff.mp ht).1
  rw [addTimer_timers_length] at hle
  rcases Nat.lt_succ_iff_lt_or_eq.mp hle with hme | rfl
  · exact Or.inl ⟨(addTimer_timers hme).symm.trans ht, hme⟩
  · rw [addTimer_timers_last, Option.some.injEq] at ht
    exact Or.inr ⟨rfl, ht.symm⟩

/-- A slot after an addition holds the new timer, or is another with its old one. -/
theorem addTimer_job_cases {i me : Nat} (hi : (s.addTimer sec pos).job i = some me) :
    i = pos ∧ me = s.timers.length ∨ i ≠ pos ∧ s.job i = some me := by
  rw [addTimer_job] at hi
  split at hi
  · rename_i hpos
    exact Or.inl ⟨hpos, (Option.some.inj hi).symm⟩
  · rename_i hpos
    exact Or.inr ⟨hpos, hi⟩

/-- The log has nothing about a timer that is not yet allocated. -/
theorem Core.log_quiet (h : Core s) {entry : Entry} (hentry : entry ∈ s.log) :
    entry.timer ≠ some s.timers.length :=
  fun hme => lt_irrefl _ (h.fresh entry hentry _ hme)

/-- An old timer against the log, once another is added. -/
theorem TimerOk.addTimer {me : Nat} {timer : TimerSt} (h : TimerOk s me timer)
    (hme : me < s.timers.length) (hempty : s.job pos = none) :
    TimerOk (s.addTimer sec pos) me timer := by
  refine h.of_same ?_ fun _ i hi => ⟨addTimer_keeps hempty hi, rfl⟩
  intro entry hentry
  rw [mem_addTimer_log]
  refine ⟨fun h => h.resolve_right ?_, Or.inl⟩
  rintro rfl
  cases hentry
  exact lt_irrefl _ hme

/-- The new timer against the log: it is due in `max 1 sec` scans of its slot. -/
theorem Core.new_timerOk (h : Core s) :
    TimerOk (s.addTimer sec pos) s.timers.length ⟨sec, .running, false⟩ := by
  have hquiet : ∀ entry, entry.timer = some s.timers.length →
      entry ∈ (s.addTimer sec pos).log →
      entry = .added s.timers.length pos sec (s.passed pos) := by
    intro entry hentry hin
    exact ((mem_addTimer_log entry).mp hin).resolve_left fun hold => h.log_quiet hold hentry
  refine ⟨⟨pos, sec, s.passed pos, (mem_addTimer_log _).mpr (Or.inr rfl)⟩, ?_,
    fun hstop => absurd rfl hstop, ?_, ?_⟩
  · intro _
    constructor
    · intro k hk
      cases hquiet _ rfl hk
    · intro hk
      cases hquiet _ rfl hk
  · constructor
    · intro hk
      cases hquiet _ rfl hk
    · intro hfreed
      cases hfreed
  · intro pos' sec' base' hadded
    cases hquiet _ rfl hadded
    refine ⟨fun _ => ⟨rfl, by rw [addTimer_job, if_pos rfl], le_refl _, ?_, ?_⟩, ?_⟩
    · show sec = sec - ((s.passed pos - s.passed pos : Nat) : Int)
      simp
    · show s.passed pos < dueScan sec (s.passed pos)
      unfold dueScan
      omega
    · intro k hk
      cases hquiet _ rfl hk

/-- A timer is added to an empty slot. -/
theorem Core.addTimer (h : Core s) (sec : Int) {pos : Nat} (hpos : pos < jobMax)
    (hempty : s.job pos = none) : Core (s.addTimer sec pos) := by
  refine ⟨h.defined, ?_, ?_, ?_, h.started, ?_, ?_, h.justified.concat fun _ => h.log_quiet⟩
  · intro i me hslot
    rcases addTimer_job_cases hslot with ⟨rfl, rfl⟩ | ⟨-, hold⟩
    · exact ⟨hpos, _, addTimer_timers_last, rfl⟩
    · obtain ⟨hi, timer, ht, hfreed⟩ := h.slot i me hold
      exact ⟨hi, timer, (addTimer_timers (h.timer_lt hold)).trans ht, hfreed⟩
  · intro i j me hi hj
    rcases addTimer_job_cases hi with ⟨rfl, rfl⟩ | ⟨-, hi⟩
    · rcases addTimer_job_cases hj with ⟨rfl, -⟩ | ⟨-, hj⟩
      · rfl
      · exact absurd (h.timer_lt hj) (lt_irrefl _)
    · rcases addTimer_job_cases hj with ⟨-, rfl⟩ | ⟨-, hj⟩
      · exact absurd (h.timer_lt hi) (lt_irrefl _)
      · exact h.once i j me hi hj
  · intro me timer ht hfreed
    rcases addTimer_timers_cases ht with ⟨ht, -⟩ | ⟨rfl, -⟩
    · exact (h.held me timer ht hfreed).imp_left fun ⟨i, hi⟩ => ⟨i, addTimer_keeps hempty hi⟩
    · exact Or.inl ⟨pos, by rw [addTimer_job, if_pos rfl]⟩
  · intro me timer ht
    rcases addTimer_timers_cases ht with ⟨ht, hme⟩ | ⟨rfl, rfl⟩
    · exact (h.timers me timer ht).addTimer hme hempty
    · exact h.new_timerOk
  · intro entry hentry me hme
    rw [addTimer_timers_length]
    rcases (mem_addTimer_log entry).mp hentry with hold | rfl
    · exact Nat.lt_succ_of_lt (h.fresh entry hold me hme)
    · cases hme
      exact Nat.lt_succ_self _

end AddTimer

/-- A timer that stopped, with one entry more about it. -/
theorem TimerOk.stop {me : Nat} {timer changed : TimerSt} (h : TimerOk s me timer)
    (entry : Entry) (hlog : next.log = s.log ++ [entry])
    (hflag : changed.flag ≠ .running)
    (hentry : (∃ k, entry = .fired me k) ∨ entry = .canceled me ∨
      entry = .freed me ∧ timer.flag ≠ .running)
    (hfreed : changed.freed = true ↔ timer.freed = true ∨ entry = .freed me)
    (hdue : ∀ k pos sec base, entry = .fired me k → .added me pos sec base ∈ s.log →
      k = dueScan sec base) : TimerOk next me changed := by
  have hmem : ∀ other, other ∈ next.log ↔ other ∈ s.log ∨ other = entry := by
    intro other
    rw [hlog, List.mem_append, List.mem_singleton]
  have hadded : ∀ pos sec base, .added me pos sec base ∈ next.log →
      .added me pos sec base ∈ s.log := by
    intro pos sec base hin
    refine ((hmem _).mp hin).resolve_right ?_
    rintro rfl
    rcases hentry with ⟨k, hk⟩ | hk | ⟨hk, -⟩ <;> cases hk
  obtain ⟨pos, sec, base, hown⟩ := h.added
  refine ⟨⟨pos, sec, base, (hmem _).mpr (Or.inl hown)⟩, fun hrunning => absurd hrunning hflag, ?_,
    ?_, ?_⟩
  · intro _
    rcases hentry with ⟨k, rfl⟩ | rfl | ⟨-, hstopped⟩
    · exact Or.inl ⟨k, (hmem _).mpr (Or.inr rfl)⟩
    · exact Or.inr ((hmem _).mpr (Or.inr rfl))
    · exact (h.stopped hstopped).imp (fun ⟨k, hk⟩ => ⟨k, (hmem _).mpr (Or.inl hk)⟩)
        fun hk => (hmem _).mpr (Or.inl hk)
  · rw [hmem, hfreed, h.freed]
    exact or_congr_right ⟨Eq.symm, Eq.symm⟩
  · intro pos sec base hin
    have hold := hadded pos sec base hin
    refine ⟨fun hrunning => absurd hrunning hflag, fun k hk => ?_⟩
    rcases (hmem _).mp hk with hk | hk
    · exact (h.onTime pos sec base hold).fired k hk
    · exact hdue k pos sec base hk.symm hold

/-- `at_canceltimer` sets the flag. -/
theorem Core.cancelTimer (h : Core s) {me : Nat} {timer : TimerSt}
    (ht : s.timers[me]? = some timer) (hfreed : timer.freed = false) :
    Core (s.cancelTimer me timer) := by
  have hown := h.timers me timer ht
  have hnot : .freed me ∉ s.log := by
    rw [hown.freed, hfreed]
    exact Bool.false_ne_true
  refine h.of_timer { timer with flag := .canceled } [.canceled me] ht rfl (fun _ _ => id)
    (fun _ _ _ => id) rfl rfl ?_ h.started (fun _ _ => hfreed)
    (fun _ => h.held me timer ht hfreed) (fun _ _ => id) (fun _ _ _ _ => rfl) ?_
    (h.justified.concat hnot)
  · intro entry hentry
    rw [List.mem_singleton.mp hentry]
    rfl
  · refine hown.stop (.canceled me) rfl ?_ (Or.inr (Or.inl rfl)) ?_ ?_
    · intro hflag
      cases hflag
    · exact ⟨Or.inl, fun hor => hor.resolve_right fun hentry => by cases hentry⟩
    · intro k pos sec base hentry
      cases hentry

theorem freeTimer_eq {me : Nat} {timer : TimerSt} (ht : s.timers[me]? = some timer)
    (hfreed : timer.freed = false) :
    s.freeTimer me = (s.setTimer me { timer with freed := true }).note (.freed me) := by
  unfold State.freeTimer
  rw [ht]
  simp only [hfreed, Bool.false_eq_true, if_false]

/-- `free` on a timer that stopped, once it has no slot any more. -/
theorem Core.freeTimer (h : Core s) {me : Nat} {timer : TimerSt}
    (ht : s.timers[me]? = some timer) (hfreed : timer.freed = false)
    (hflag : timer.flag ≠ .running) {job : Nat → Option Nat} (hslot : ∀ i, job i ≠ some me)
    (hback : ∀ i other, job i = some other → s.job i = some other)
    (hforth : ∀ i other, other ≠ me → s.job i = some other → job i = some other)
    (pc : Pc) (hpc : ∀ other, other ≠ me → s.pc = .freeing other → pc = .freeing other) :
    Core { State.freeTimer { s with job := job } me with pc := pc } := by
  have hown := h.timers me timer ht
  have hnot : .freed me ∉ s.log := by
    rw [hown.freed, hfreed]
    exact Bool.false_ne_true
  rw [freeTimer_eq (s := { s with job := job }) ht hfreed]
  refine h.of_timer { timer with freed := true } [.freed me] ht rfl hback hforth rfl rfl ?_
    h.started (fun i hi => absurd hi (hslot i)) ?_ hpc
    (fun _ _ _ _ => rfl) ?_ (h.justified.concat ⟨hnot, hown.stopped hflag⟩)
  · intro entry hentry
    rw [List.mem_singleton.mp hentry]
    rfl
  · intro hnever
    cases hnever
  · refine hown.stop (.freed me) rfl hflag (Or.inr (Or.inr ⟨rfl, hflag⟩)) ?_ ?_
    · exact ⟨fun _ => Or.inr rfl, fun _ => rfl⟩
    · intro k pos sec base hentry
      cases hentry

/-- `job[id] = NULL` on a timer that stopped. -/
theorem Core.clearSlot (h : Core s) {id me : Nat} (hid : s.job id = some me)
    (hflag : ∀ timer, s.timers[me]? = some timer → timer.flag ≠ .running)
    (hpc : ∀ other, s.pc ≠ .freeing other) : Core ((s.clearSlot id).goto (.freeing me)) := by
  have hjob : ∀ i, (s.clearSlot id).job i = if i = id then none else s.job i :=
    fun i => Function.update_apply _ _ _ _
  have hkeeps : ∀ {i other}, (s.clearSlot id).job i = some other → s.job i = some other := by
    intro i other hi
    rw [hjob] at hi
    split at hi
    · cases hi
    · exact hi
  refine ⟨h.defined, fun i other hi => h.slot i other (hkeeps hi),
    fun i j other hi hj => h.once i j other (hkeeps hi) (hkeeps hj), ?_, h.started, ?_, h.fresh,
    h.justified⟩
  · intro other timer ht hfreed
    obtain ⟨i, hi⟩ := (h.held other timer ht hfreed).resolve_right (hpc other)
    by_cases hsame : i = id
    · subst hsame
      rw [hid, Option.some.injEq] at hi
      exact Or.inr (congrArg Pc.freeing hi)
    · exact Or.inl ⟨i, (hjob i).trans ((if_neg hsame).trans hi)⟩
  · intro other timer ht
    refine (h.timers other timer ht).of_same (fun _ _ => Iff.rfl) ?_
    intro hrunning pos hpos
    refine ⟨?_, rfl⟩
    by_cases hsame : pos = id
    · subst hsame
      rw [hid, Option.some.injEq] at hpos
      subst hpos
      exact absurd hrunning (hflag timer ht)
    · exact (hjob pos).trans ((if_neg hsame).trans hpos)

/-- The timer in the slot that the handler is at. -/
theorem Core.running_at (h : Core s) {i me : Nat} {timer : TimerSt}
    (hhandler : s.handler = .scanning i) (hjob : s.job i = some me)
    (ht : s.timers[me]? = some timer) (hrunning : timer.flag = .running) {pos : Nat} {sec : Int}
    {base : Nat} (hadded : .added me pos sec base ∈ s.log) :
    pos = i ∧ base ≤ s.scans - 1 ∧ timer.sec = sec - (s.scans - 1 - base : Nat) ∧
      s.scans - 1 < dueScan sec base ∧ 1 ≤ s.scans := by
  obtain ⟨-, hslot, hle, hsec, hlt⟩ := ((h.timers me timer ht).onTime pos sec base hadded).running
    hrunning
  obtain rfl := h.once pos i me hslot hjob
  have hpassed : s.passed pos = s.scans - 1 := by
    unfold State.passed
    rw [hhandler]
    simp [Handler.ahead]
  have hstarted := h.started (by rw [hhandler]; intro hidle; cases hidle)
  rw [hpassed] at hle hsec hlt
  exact ⟨rfl, hle, hsec, hlt, hstarted⟩

/-- The handler goes past a slot: only what is in the slot notices. -/
theorem passed_of_visit {i pos : Nat} (hhandler : s.handler = .scanning i) (hpos : pos ≠ i)
    (hscans : next.scans = s.scans)
    (hnext : next.handler = .scanning (i + 1) ∨ next.handler = .inCallback i) :
    next.passed pos = s.passed pos := by
  have hahead : next.handler.ahead pos = s.handler.ahead pos := by
    rw [hhandler]
    rcases hnext with hnext | hnext
    · rw [hnext]
      exact decide_eq_decide.mpr (by omega)
    · rw [hnext]
      exact decide_eq_decide.mpr (by omega)
  unfold State.passed
  rw [hahead, hscans]

/-- A slot is passed over: it is empty, or its timer does not run. -/
theorem Core.skip (h : Core s) {i : Nat} (hhandler : s.handler = .scanning i)
    (hidle : ∀ me timer, s.job i = some me → s.timers[me]? = some timer → timer.flag ≠ .running) :
    Core { s with handler := .scanning (i + 1) } := by
  refine h.of_same rfl rfl rfl (Or.inl rfl) ?_ (fun _ => id) ?_
  · exact fun _ => h.started (by rw [hhandler]; intro hsleep; cases hsleep)
  · intro me timer pos ht hrunning hslot
    refine passed_of_visit hhandler ?_ rfl (Or.inl rfl)
    rintro rfl
    exact hidle me timer hslot ht hrunning

/-- The loop of the handler ends. -/
theorem Core.endScan (h : Core s) {i : Nat} (hhandler : s.handler = .scanning i)
    (hend : ¬ i < jobMax) : Core { s with handler := .idle, pc := s.pc.wake } := by
  refine h.of_same rfl rfl rfl (Or.inl rfl) (fun hidle => absurd rfl hidle) ?_ ?_
  · intro me hpc
    show s.pc.wake = _
    rw [hpc]
    rfl
  · intro me timer pos ht hrunning hslot
    have hpos := (h.slot pos me hslot).1
    unfold State.passed
    rw [hhandler]
    simp only [Handler.ahead, decide_eq_true_eq]
    rw [if_neg (by omega)]
    rfl

/-- A second is taken off a timer that is not due. -/
theorem Core.tick (h : Core s) {i me : Nat} {timer : TimerSt} (hhandler : s.handler = .scanning i)
    (hjob : s.job i = some me) (ht : s.timers[me]? = some timer) (hrunning : timer.flag = .running)
    (hleft : ¬ timer.sec - 1 ≤ 0) :
    Core ({ s with handler := .scanning (i + 1) }.setTimer me
      { timer with sec := timer.sec - 1 }) := by
  obtain ⟨-, timer', ht', hfreed⟩ := h.slot i me hjob
  rw [ht, Option.some.injEq] at ht'
  subst ht'
  have hown := h.timers me timer ht
  have hpassed : State.passed ({ s with handler := .scanning (i + 1) }.setTimer me
      { timer with sec := timer.sec - 1 }) i = s.scans := by
    simp [State.passed, State.setTimer, Handler.ahead]
  refine h.of_timer { timer with sec := timer.sec - 1 } [] ht rfl
    (fun _ _ => id) (fun _ _ _ => id) rfl (List.append_nil _).symm
    (fun _ hentry => absurd hentry List.not_mem_nil)
    (fun _ => h.started (by rw [hhandler]; intro hsleep; cases hsleep)) (fun _ _ => hfreed)
    (fun _ => Or.inl ⟨i, hjob⟩) (fun _ _ => id) ?_ ?_ h.justified
  · intro other pos hother hslot
    refine passed_of_visit hhandler ?_ rfl (Or.inl rfl)
    rintro rfl
    rw [hjob, Option.some.injEq] at hslot
    exact hother hslot.symm
  · refine ⟨hown.added, hown.running, hown.stopped, hown.freed, ?_⟩
    intro pos sec base hadded
    obtain ⟨rfl, hle, hsec, hlt, hstarted⟩ := h.running_at hhandler hjob ht hrunning hadded
    refine ⟨fun _ => ⟨hfreed, hjob, ?_, ?_, ?_⟩, (hown.onTime pos sec base hadded).fired⟩
    · rw [hpassed]
      omega
    · rw [hpassed]
      show timer.sec - 1 = sec - (s.scans - base : Nat)
      omega
    · rw [hpassed]
      unfold dueScan at hlt ⊢
      omega

/-- A timer that is due is called back, in the scan it is due in. -/
theorem Core.fire (h : Core s) {i me : Nat} {timer : TimerSt} (hhandler : s.handler = .scanning i)
    (hjob : s.job i = some me) (ht : s.timers[me]? = some timer) (hrunning : timer.flag = .running)
    (hdue : timer.sec - 1 ≤ 0) :
    Core (({ s with handler := .inCallback i }.setTimer me
      { timer with sec := timer.sec - 1, flag := .over }).note (.fired me s.scans)) := by
  obtain ⟨-, timer', ht', hfreed⟩ := h.slot i me hjob
  rw [ht, Option.some.injEq] at ht'
  subst ht'
  have hown := h.timers me timer ht
  have hnot : .freed me ∉ s.log := by
    rw [hown.freed, hfreed]
    exact Bool.false_ne_true
  have hfollows : Follows s.log (.fired me s.scans) :=
    ⟨hown.added, (hown.running hrunning).1, (hown.running hrunning).2, hnot⟩
  refine h.of_timer { timer with sec := timer.sec - 1, flag := .over } [.fired me s.scans]
    ht rfl (fun _ _ => id) (fun _ _ _ => id) rfl rfl ?_
    (fun _ => h.started (by rw [hhandler]; intro hsleep; cases hsleep)) (fun _ _ => hfreed)
    (fun _ => Or.inl ⟨i, hjob⟩) (fun _ _ => id) ?_ ?_ (h.justified.concat hfollows)
  · intro entry hentry
    rw [List.mem_singleton.mp hentry]
    rfl
  · intro other pos hother hslot
    refine passed_of_visit hhandler ?_ rfl (Or.inr rfl)
    rintro rfl
    rw [hjob, Option.some.injEq] at hslot
    exact hother hslot.symm
  · refine hown.stop (.fired me s.scans) rfl ?_ (Or.inl ⟨s.scans, rfl⟩) ?_ ?_
    · intro hflag
      cases hflag
    · exact ⟨Or.inl, fun hor => hor.resolve_right fun hentry => by cases hentry⟩
    · intro k pos sec base hentry hadded
      cases hentry
      obtain ⟨rfl, hle, hsec, hlt, hstarted⟩ := h.running_at hhandler hjob ht hrunning hadded
      unfold dueScan at hlt ⊢
      omega

end Core

/-! ## Steps -/

section Step

variable {s next : State}

theorem deref_eq {me : Nat} {timer : TimerSt} (ht : s.timers[me]? = some timer)
    (hfreed : timer.freed = false) (f : TimerSt → State) : s.deref me f = f timer := by
  unfold State.deref
  rw [ht]
  simp only [hfreed, Bool.false_eq_true, if_false]

theorem Core.derefSlot_eq (h : Core s) {id : Nat} (hid : ∃ me, s.job id = some me) :
    ∃ me timer, s.job id = some me ∧ s.timers[me]? = some timer ∧ timer.freed = false ∧
      ∀ f : Nat → TimerSt → State, s.derefSlot id f = f me timer := by
  obtain ⟨me, hme⟩ := hid
  obtain ⟨-, timer, ht, hfreed⟩ := h.slot id me hme
  refine ⟨me, timer, hme, ht, hfreed, fun f => ?_⟩
  unfold State.derefSlot
  rw [hme]
  exact deref_eq ht hfreed (f me)

/-- What the program relies on is in the table and the timers. -/
theorem PcOk.congr {pc : Pc} (h : PcOk s pc) (hjob : next.job = s.job)
    (htimers : next.timers = s.timers) : PcOk next pc := by
  cases pc with
  | idle => trivial
  | finding sec malloc i => trivial
  | _ => simpa only [PcOk, hjob, htimers] using h

/-- What the program relies on survives a timer that stops or goes on. -/
theorem PcOk.of_set {pc : Pc} (h : PcOk s pc) {me : Nat} {timer changed : TimerSt}
    (ht : s.timers[me]? = some timer) (hjob : next.job = s.job)
    (htimers : next.timers = s.timers.set me changed) (hfreed : changed.freed = timer.freed)
    (hflag : timer.flag ≠ .running → changed.flag ≠ .running) : PcOk next pc := by
  have hlt := (List.getElem?_eq_some_iff.mp ht).1
  cases pc with
  | clearing id own =>
    refine ⟨by rw [hjob]; exact h.1, ?_⟩
    intro timer' ht'
    rw [htimers] at ht'
    by_cases hown : own = me
    · subst hown
      rw [List.getElem?_set_self hlt, Option.some.injEq] at ht'
      subst ht'
      exact hflag (h.2 timer ht)
    · rw [List.getElem?_set_ne (Ne.symm hown)] at ht'
      exact h.2 timer' ht'
  | freeing own =>
    obtain ⟨hslots, timer', ht', hunfreed, hstopped⟩ := h
    refine ⟨by rw [hjob]; exact hslots, ?_⟩
    rw [htimers]
    by_cases hown : own = me
    · subst hown
      rw [ht, Option.some.injEq] at ht'
      subst ht'
      exact ⟨changed, List.getElem?_set_self hlt, hfreed.trans hunfreed, hflag hstopped⟩
    · exact ⟨timer', (List.getElem?_set_ne (Ne.symm hown)).trans ht', hunfreed, hstopped⟩
  | idle => trivial
  | finding sec malloc i => trivial
  | _ => simpa only [PcOk, hjob] using h

/-- What the program relies on survives an addition to another slot. -/
theorem PcOk.addTimer {pc : Pc} (h : PcOk s pc) (core : Core s) {sec : Int} {pos : Nat}
    (hempty : s.job pos = none) (hsafe : ∀ own, pc ≠ .storing own pos) :
    PcOk (s.addTimer sec pos) pc := by
  have hkeeps : ∀ {i me}, s.job i = some me → (s.addTimer sec pos).job i = some me :=
    addTimer_keeps hempty
  cases pc with
  | idle => trivial
  | finding own malloc i => trivial
  | storing own other =>
    refine ⟨h.1, ?_⟩
    rw [addTimer_job, if_neg ?_]
    · exact h.2
    · rintro rfl
      exact hsafe own rfl
  | testingCanceled id => exact h.imp fun _ => hkeeps
  | testingOver id => exact h.imp fun _ => hkeeps
  | canceling id => exact h.imp fun _ => hkeeps
  | loading id => exact h.imp fun _ => hkeeps
  | waiting id me => exact hkeeps h
  | beforePause id me => exact hkeeps h
  | pausing id me => exact hkeeps h
  | clearing id me =>
    refine ⟨hkeeps h.1, ?_⟩
    rw [addTimer_timers (core.timer_lt h.1)]
    exact h.2
  | freeing me =>
    obtain ⟨hslots, timer, ht, hrest⟩ := h
    have hlt := (List.getElem?_eq_some_iff.mp ht).1
    refine ⟨?_, timer, (addTimer_timers hlt).trans ht, hrest⟩
    intro i hi
    rcases addTimer_job_cases hi with ⟨-, rfl⟩ | ⟨-, hi⟩
    · exact absurd hlt (lt_irrefl _)
    · exact hslots i hi

/-- A call of the program that returns, or goes on to its next access. -/
theorem Inv.goto (h : Inv s) (hpc : ∀ me, s.pc ≠ .freeing me) {pc : Pc} (hok : PcOk s pc) :
    Inv (s.goto pc) :=
  ⟨h.core.of_same rfl rfl rfl (Or.inl rfl) h.core.started (fun me hme => absurd hme (hpc me))
    fun _ _ _ _ _ _ => rfl, hok.congr rfl rfl⟩

theorem Inv.refuse (h : Inv s) (hpc : ∀ me, s.pc ≠ .freeing me) (error : AtError) :
    Inv (s.refuse error) :=
  ⟨h.core.of_same rfl rfl rfl (Or.inr ⟨error, rfl⟩) h.core.started
    (fun me hme => absurd hme (hpc me)) fun _ _ _ _ _ _ => rfl, trivial⟩

theorem enterId_inv (h : Inv s) (hidle : s.pc = .idle) {id : Int} {pc : Nat → Pc}
    (hpc : ∀ slot, (∃ me, s.job slot = some me) → PcOk s (pc slot)) :
    Inv (enterId s id pc) := by
  have hout : ∀ me, s.pc ≠ .freeing me := by
    intro me hme
    rw [hidle] at hme
    cases hme
  unfold enterId
  split
  · exact h.refuse hout _
  · rename_i slot _
    split
    · exact h.refuse hout _
    · rename_i hheld
      refine h.goto hout (hpc slot ?_)
      rw [Option.isNone_iff_eq_none] at hheld
      exact Option.ne_none_iff_exists'.mp hheld

theorem enterAdd_inv (h : Inv s) (hidle : s.pc = .idle) (sec : Int) (func malloc : Bool) :
    Inv (enterAdd s sec func malloc) := by
  have hout : ∀ me, s.pc ≠ .freeing me := by
    intro me hme
    rw [hidle] at hme
    cases hme
  have hloaded : Inv { s with inited := true } :=
    ⟨h.core.of_same rfl rfl rfl (Or.inl rfl) h.core.started (fun me hme => absurd hme (hout me))
      fun _ _ _ _ _ _ => rfl, h.pc.congr rfl rfl⟩
  unfold enterAdd
  split
  · exact hloaded.refuse hout _
  · exact hloaded.goto hout trivial

/-! ## The accesses of the program -/

section Accesses

/-- A turn of the search for a free slot. -/
theorem Inv.find (h : Inv s) (hout : ∀ me, s.pc ≠ .freeing me) (sec : Int) (malloc : Bool)
    (i : Nat) :
    Inv (if i < jobMax then
      if (s.job i).isNone then
        if malloc then s.goto (.storing sec i) else s.refuse .enomem
      else s.goto (.finding sec malloc (i + 1))
    else s.refuse .enospc) := by
  split
  · rename_i hi
    split
    · rename_i hempty
      split
      · exact h.goto hout ⟨hi, Option.isNone_iff_eq_none.mp hempty⟩
      · exact h.refuse hout _
    · exact h.goto hout trivial
  · exact h.refuse hout _

/-- The last access of a call: what it leaves does not depend on where the program is. -/
theorem Core.returns (h : Core next) (hsame : next.pc = s.pc) (hout : ∀ me, s.pc ≠ .freeing me) :
    Inv (next.goto .idle) := by
  refine ⟨h.of_same rfl rfl rfl (Or.inl rfl) h.started ?_ fun _ _ _ _ _ _ => rfl, trivial⟩
  intro me hme
  rw [hsame] at hme
  exact absurd hme (hout me)

/-- A test of the flag before `at_canceltimer` sets it. -/
theorem Inv.testFlag (h : Inv s) (hout : ∀ me, s.pc ≠ .freeing me) {id : Nat}
    (hid : ∃ me, s.job id = some me) (flag : Flag) (error : AtError) (pc : Pc) (hok : PcOk s pc) :
    Inv (s.derefSlot id fun _ timer =>
      if timer.flag = flag then s.refuse error else s.goto pc) := by
  obtain ⟨me, timer, -, -, -, hderef⟩ := h.core.derefSlot_eq hid
  rw [hderef]
  split
  · exact h.refuse hout _
  · exact h.goto hout hok

/-- `at_canceltimer` sets the flag and returns. -/
theorem Inv.setCanceled (h : Inv s) (hout : ∀ me, s.pc ≠ .freeing me) {id : Nat}
    (hid : ∃ me, s.job id = some me) :
    Inv (s.derefSlot id fun me timer => (s.cancelTimer me timer).goto .idle) := by
  obtain ⟨me, timer, -, ht, hfreed, hderef⟩ := h.core.derefSlot_eq hid
  rw [hderef]
  exact (h.core.cancelTimer ht hfreed).returns rfl hout

/-- A test of the flag in the loop of `at_waitttimer`. -/
theorem Inv.testRunning (h : Inv s) (hout : ∀ me, s.pc ≠ .freeing me) {id me : Nat}
    (hid : s.job id = some me) :
    Inv (s.deref me fun timer =>
      s.goto (if timer.flag = .running then .beforePause id me else .clearing id me)) := by
  obtain ⟨-, timer, ht, hfreed⟩ := h.core.slot id me hid
  rw [deref_eq ht hfreed]
  split
  · exact h.goto hout hid
  · rename_i hflag
    refine h.goto hout ⟨hid, fun timer' ht' => ?_⟩
    rw [ht, Option.some.injEq] at ht'
    exact ht' ▸ hflag

/-- `at_waitttimer` empties the slot of a timer that stopped. -/
theorem Inv.clear (h : Inv s) (hout : ∀ me, s.pc ≠ .freeing me) {id me : Nat}
    (hid : s.job id = some me)
    (hflag : ∀ timer, s.timers[me]? = some timer → timer.flag ≠ .running) :
    Inv ((s.clearSlot id).goto (.freeing me)) := by
  refine ⟨h.core.clearSlot hid hflag hout, ?_, ?_⟩
  · intro i hi
    change Function.update s.job id none i = some me at hi
    rw [Function.update_apply] at hi
    split at hi
    · cases hi
    · rename_i hne
      exact hne (h.core.once i id me hi hid)
  · obtain ⟨-, timer, ht, hfreed⟩ := h.core.slot id me hid
    exact ⟨timer, ht, hfreed, hflag timer ht⟩

/-- `at_waitttimer` releases the timer and returns. -/
theorem Inv.free (h : Inv s) {me : Nat} (hpc : s.pc = .freeing me) (hok : PcOk s (.freeing me)) :
    Inv ((s.freeTimer me).goto .idle) := by
  obtain ⟨hslots, timer, ht, hfreed, hflag⟩ := hok
  refine ⟨h.core.freeTimer ht hfreed hflag hslots (fun _ _ => id) (fun _ _ _ => id) _ ?_, trivial⟩
  intro other hother hfreeing
  rw [hpc, Pc.freeing.injEq] at hfreeing
  exact absurd hfreeing.symm hother

/-- `at_waitttimer` reads its slot. -/
theorem Inv.load (h : Inv s) (hout : ∀ me, s.pc ≠ .freeing me) {id : Nat}
    (hid : ∃ me, s.job id = some me) :
    Inv (match s.job id with
      | none => s.violate (.nullDereference id)
      | some me => s.goto (.waiting id me)) := by
  obtain ⟨me, hme⟩ := hid
  rw [hme]
  exact h.goto hout hme

end Accesses

/-- The program goes on: it finds the table as it left it. -/
theorem advance_inv (h : Inv s) (hstep : advance s = some next) : Inv next := by
  have hok := h.pc
  have hout : (∃ me, s.pc = .freeing me) ∨ ∀ me, s.pc ≠ .freeing me := by
    by_cases hpc : ∃ me, s.pc = .freeing me
    · exact Or.inl hpc
    · exact Or.inr fun me hme => hpc ⟨me, hme⟩
  unfold advance at hstep
  rcases hout with ⟨me, hpc⟩ | hout
  · rw [hpc] at hok hstep
    exact Option.some.inj hstep ▸ h.free hpc hok
  · cases hpc : s.pc with
    | idle =>
      rw [hpc] at hstep
      cases hstep
    | finding sec malloc i =>
      rw [hpc] at hstep
      exact Option.some.inj hstep ▸ h.find hout sec malloc i
    | storing sec pos =>
      rw [hpc] at hok hstep
      exact Option.some.inj hstep ▸ (h.core.addTimer sec hok.1 hok.2).returns rfl hout
    | testingCanceled id =>
      rw [hpc] at hok hstep
      exact Option.some.inj hstep ▸ h.testFlag hout hok .canceled .ecanceled (.testingOver id) hok
    | testingOver id =>
      rw [hpc] at hok hstep
      exact Option.some.inj hstep ▸ h.testFlag hout hok .over .ebusy (.canceling id) hok
    | canceling id =>
      rw [hpc] at hok hstep
      exact Option.some.inj hstep ▸ h.setCanceled hout hok
    | loading id =>
      rw [hpc] at hok hstep
      exact Option.some.inj hstep ▸ h.load hout hok
    | waiting id me =>
      rw [hpc] at hok hstep
      exact Option.some.inj hstep ▸ h.testRunning hout hok
    | beforePause id me =>
      rw [hpc] at hok hstep
      have hpausing : PcOk s (.pausing id me) := hok
      exact Option.some.inj hstep ▸ h.goto hout hpausing
    | pausing id me =>
      rw [hpc] at hstep
      cases hstep
    | clearing id me =>
      rw [hpc] at hok hstep
      exact Option.some.inj hstep ▸ h.clear hout hok.1 hok.2
    | freeing me => exact absurd hpc (hout me)

/-- The handler goes on. -/
theorem visit_inv (h : Inv s) (hstep : visit s = some next) : Inv next := by
  unfold visit at hstep
  split at hstep
  · rename_i i hhandler
    rw [Option.some.injEq] at hstep
    subst hstep
    split
    · rename_i hi
      split
      · rename_i hempty
        refine ⟨h.core.skip hhandler ?_, h.pc.congr rfl rfl⟩
        intro me timer hme
        rw [hempty] at hme
        cases hme
      · rename_i me hme
        obtain ⟨-, timer, ht, hfreed⟩ := h.core.slot i me hme
        rw [deref_eq ht hfreed]
        split
        · rename_i hrunning
          split
          · rename_i hdue
            refine ⟨h.core.fire hhandler hme ht hrunning hdue, h.pc.of_set ht rfl rfl rfl ?_⟩
            intro _ hflag
            cases hflag
          · rename_i hleft
            exact ⟨h.core.tick hhandler hme ht hrunning hleft, h.pc.of_set ht rfl rfl rfl id⟩
        · rename_i hflag
          refine ⟨h.core.skip hhandler ?_, h.pc.congr rfl rfl⟩
          intro other timer' hother ht'
          rw [hme, Option.some.injEq] at hother
          subst hother
          rw [ht, Option.some.injEq] at ht'
          exact ht' ▸ hflag
    · rename_i hend
      refine ⟨h.core.endScan hhandler hend, ?_⟩
      have hok := h.pc
      show PcOk _ s.pc.wake
      cases hpc : s.pc <;> rw [hpc] at hok <;> exact hok.congr rfl rfl
  · cases hstep

/-- A call in a callback fails. -/
theorem Inv.note (h : Inv s) (error : AtError) : Inv (s.note (.failed error)) :=
  ⟨h.core.of_same rfl rfl rfl (Or.inr ⟨error, rfl⟩) h.core.started (fun _ hpc => hpc)
    fun _ _ _ _ _ _ => rfl, h.pc.congr rfl rfl⟩

/-- A callback adds a timer, not to the slot that the program is about to store to. -/
theorem callbackAdd_inv (h : Inv s) {sec : Int} {func malloc : Bool}
    (hsafe : interruptSafe s (.callbackAdd sec func malloc) = true) :
    Inv (callbackAdd s sec func malloc) := by
  unfold callbackAdd
  split
  · exact h.note _
  · split
    · exact h.note _
    · rename_i pos hfree
      split
      · obtain ⟨hpos, hempty⟩ := getFreePos_eq_some hfree
        refine ⟨h.core.addTimer _ hpos hempty, h.pc.addTimer h.core hempty ?_⟩
        intro own hpc
        simp only [interruptSafe, hpc, hfree] at hsafe
        simp at hsafe
      · exact h.note _

/-- A callback cancels a timer. -/
theorem callbackCancel_inv (h : Inv s) (id : Int) : Inv (callbackCancel s id) := by
  unfold callbackCancel
  split
  · exact h.note _
  · rename_i me hme
    obtain ⟨slot, -, hslot⟩ := Option.bind_eq_some_iff.mp hme
    obtain ⟨-, timer, ht, hfreed⟩ := h.core.slot slot me hslot
    rw [deref_eq ht hfreed]
    split
    · exact h.note _
    · split
      · exact h.note _
      · refine ⟨h.core.cancelTimer ht hfreed, h.pc.of_set ht rfl rfl rfl ?_⟩
        intro _ hflag
        cases hflag

/-- The slots after one is cleared. -/
theorem Core.released (h : Core s) {slot me : Nat} (hme : s.job slot = some me) :
    (∀ i, (s.clearSlot slot).job i ≠ some me) ∧
      (∀ i other, (s.clearSlot slot).job i = some other → s.job i = some other) ∧
      ∀ i other, other ≠ me → s.job i = some other → (s.clearSlot slot).job i = some other := by
  have hjob : ∀ i, (s.clearSlot slot).job i = if i = slot then none else s.job i :=
    fun i => Function.update_apply _ _ _ _
  refine ⟨?_, ?_, ?_⟩
  · intro i hi
    rw [hjob] at hi
    split at hi
    · cases hi
    · rename_i hne
      exact hne (h.once i slot me hi hme)
  · intro i other hi
    rw [hjob] at hi
    split at hi
    · cases hi
    · exact hi
  · intro i other hother hi
    rw [hjob, if_neg ?_]
    · exact hi
    · rintro rfl
      rw [hme, Option.some.injEq] at hi
      exact hother hi.symm

/-- What the program relies on survives the release of a timer in another slot. -/
theorem PcOk.release {pc : Pc} (h : PcOk s pc) (core : Core s) {slot me : Nat}
    (hme : s.job slot = some me) (hslot : pc.slot ≠ some slot) (timer : TimerSt) :
    PcOk (((s.clearSlot slot).setTimer me { timer with freed := true }).note (.freed me)) pc := by
  have hjob : ∀ i, (s.clearSlot slot).job i = if i = slot then none else s.job i :=
    fun i => Function.update_apply _ _ _ _
  have hkeeps : ∀ {i other}, i ≠ slot → s.job i = some other →
      (s.clearSlot slot).job i = some other := by
    intro i other hne hi
    rw [hjob, if_neg hne]
    exact hi
  have hne : ∀ {i}, pc.slot = some i → i ≠ slot := by
    rintro i hi rfl
    exact hslot hi
  have htimers : ∀ {other}, other ≠ me →
      (s.timers.set me { timer with freed := true })[other]? = s.timers[other]? :=
    fun hother => List.getElem?_set_ne (Ne.symm hother)
  cases pc with
  | idle => trivial
  | finding own malloc i => trivial
  | storing own other =>
    refine ⟨h.1, ?_⟩
    show (s.clearSlot slot).job other = none
    rw [hjob]
    split
    · rfl
    · exact h.2
  | testingCanceled id => exact h.imp fun _ => hkeeps (hne rfl)
  | testingOver id => exact h.imp fun _ => hkeeps (hne rfl)
  | canceling id => exact h.imp fun _ => hkeeps (hne rfl)
  | loading id => exact h.imp fun _ => hkeeps (hne rfl)
  | waiting id own => exact hkeeps (hne rfl) h
  | beforePause id own => exact hkeeps (hne rfl) h
  | pausing id own => exact hkeeps (hne rfl) h
  | clearing id own =>
    refine ⟨hkeeps (hne rfl) h.1, ?_⟩
    have hother : own ≠ me := by
      rintro rfl
      exact hne rfl (core.once id slot own h.1 hme)
    show ∀ other, (s.timers.set me _)[own]? = some other → _
    rw [htimers hother]
    exact h.2
  | freeing own =>
    have hother : own ≠ me := by
      rintro rfl
      exact h.1 slot hme
    refine ⟨fun i hi => h.1 i ?_, ?_⟩
    · exact (core.released hme).2.1 i own hi
    · show ∃ other, (s.timers.set me _)[own]? = some other ∧ _
      rw [htimers hother]
      exact h.2

/-- A callback releases a timer in a slot that the program is not at. -/
theorem callbackWait_inv (h : Inv s) {id : Int} {own : Nat} (hhandler : s.handler = .inCallback own)
    (hsafe : interruptSafe s (.callbackWait id) = true) : Inv (callbackWait s id own) := by
  unfold callbackWait
  split
  · exact h.note _
  · rename_i slot hid
    split
    · exact h.note _
    · rename_i me hme
      obtain ⟨-, timer, ht, hfreed⟩ := h.core.slot slot me hme
      rw [deref_eq ht hfreed]
      split
      · refine ⟨h.core.of_same rfl rfl rfl (Or.inl rfl) ?_ (fun _ hpc => hpc) ?_, h.pc.congr rfl rfl⟩
        · exact fun _ => h.core.started (by rw [hhandler]; intro hidle; cases hidle)
        · intro _ _ pos _ _ _
          unfold State.passed
          rw [hhandler]
          rfl
      · rename_i hflag
        obtain ⟨hslots, hback, hforth⟩ := h.core.released hme
        have hcore := h.core.freeTimer ht hfreed hflag hslots hback hforth s.pc
          fun _ _ hpc => hpc
        have hpc := h.pc.release h.core hme (fun hat => by
          simp only [interruptSafe, hat, hid] at hsafe
          simp at hsafe) timer
        have hfree := freeTimer_eq (s := s.clearSlot slot) ht hfreed
        change Core { (s.clearSlot slot).freeTimer me with pc := s.pc } at hcore
        rw [hfree] at hcore ⊢
        exact ⟨hcore, hpc⟩

/-- A call starts only where the program is outside of every call. -/
theorem enter_eq_some {after : State} (h : enter s after = some next) :
    s.pc = .idle ∧ after = next := by
  unfold enter program at h
  split at h
  · split at h
    · rename_i hidle
      exact ⟨hidle, Option.some.inj h⟩
    · cases h
  · cases h

theorem duringCallback_eq_some {after : Nat → State} (h : duringCallback s after = some next) :
    ∃ i, s.handler = .inCallback i ∧ after i = next := by
  unfold duringCallback at h
  split at h
  · rename_i i hhandler
    exact ⟨i, hhandler, Option.some.inj h⟩
  · cases h

/-- A scan starts: no slot has been passed by it yet. -/
theorem alarm_inv (h : Inv s) (hstep : alarm s = some next) : Inv next := by
  unfold alarm at hstep
  split at hstep
  · split at hstep
    · rename_i hhandler
      cases hstep
      refine ⟨h.core.of_same rfl rfl rfl (Or.inl rfl) (fun _ => Nat.le_add_left 1 s.scans)
        (fun _ hpc => hpc) ?_, h.pc.congr rfl rfl⟩
      intro _ _ pos _ _ _
      simp [State.passed, hhandler, Handler.ahead]
    · cases hstep
  · cases hstep

/-- The scan goes on behind the slot whose callback returned. -/
theorem callbackReturn_inv (h : Inv s) {i : Nat} (hhandler : s.handler = .inCallback i) :
    Inv { s with handler := .scanning (i + 1) } := by
  refine ⟨h.core.of_same rfl rfl rfl (Or.inl rfl) ?_ (fun _ hpc => hpc) ?_, h.pc.congr rfl rfl⟩
  · exact fun _ => h.core.started (by rw [hhandler]; intro hidle; cases hidle)
  · intro _ _ pos _ _ _
    unfold State.passed
    rw [hhandler]
    rfl

/-- What one step preserves. -/
theorem step_inv {event : Event} (h : Inv s) (hsafe : interruptSafe s event = true)
    (hstep : step s event = some next) : Inv next := by
  unfold step at hstep
  rw [if_neg (not_not.mpr h.core.defined)] at hstep
  cases event with
  | add sec func malloc =>
    obtain ⟨hidle, rfl⟩ := enter_eq_some hstep
    exact enterAdd_inv h hidle sec func malloc
  | cancel id =>
    obtain ⟨hidle, rfl⟩ := enter_eq_some hstep
    exact enterId_inv h hidle fun slot hslot => hslot
  | wait id =>
    obtain ⟨hidle, rfl⟩ := enter_eq_some hstep
    exact enterId_inv h hidle fun slot hslot => hslot
  | advance =>
    change program s (advance s) = some next at hstep
    unfold program at hstep
    split at hstep
    · exact advance_inv h hstep
    · cases hstep
  | alarm => exact alarm_inv h hstep
  | visit => exact visit_inv h hstep
  | callbackAdd sec func malloc =>
    obtain ⟨i, -, rfl⟩ := duringCallback_eq_some hstep
    exact callbackAdd_inv h hsafe
  | callbackCancel id =>
    obtain ⟨i, -, rfl⟩ := duringCallback_eq_some hstep
    exact callbackCancel_inv h id
  | callbackWait id =>
    obtain ⟨i, hhandler, rfl⟩ := duringCallback_eq_some hstep
    exact callbackWait_inv h hhandler hsafe
  | callbackReturn =>
    obtain ⟨i, hhandler, rfl⟩ := duringCallback_eq_some hstep
    exact callbackReturn_inv h hhandler

end Step

/-! ## Runs -/

theorem run_inv {events : List Event} (h : InterruptSafe events) : Inv (run step start events) :=
  Meets.run_induction Inv (fun _ _ _ hinv hsafe hstep => step_inv hinv hsafe hstep) h start_inv

/-- A timer of one second that is due while the program is about to cancel it: the alarm
arrives between the test of its flag and the store. -/
def calledBack : List Event :=
  [.add 1 true true, .advance, .advance, .cancel 0, .advance, .advance, .alarm, .visit,
    .callbackAdd 5 true true, .callbackWait 0]

/-- The callback releases the timer that the program is about to cancel. -/
example : ¬ InterruptSafe calledBack := by decide +kernel

/-- The callback takes the free slot that `at_addtimer` has found and not yet stored to:
the store would overwrite the timer of the callback. -/
example : ¬ InterruptSafe (calledBack.take 3 ++
    [.add 5 true true, .advance, .advance, .alarm, .visit, .callbackAdd 2 true true]) := by
  decide +kernel

end LearnApue.Para.SignalAnytimer
