import Mathlib.Data.Nat.Prime.Basic
import Mathlib.Data.Nat.Sqrt
import LearnApue.Foundation.CondVar

set_option autoImplicit false

/-!
# A pool of workers fed through one slot

`primer1_pool_cond.c`: `main` hands jobs to its workers through the one integer
`num`, which is `0` while the slot is empty, the job while it waits to be taken
and `-1` once there are no more.  Workers wait on `cond_job`, `main` waits on
`cond_empty`, and both sides change `num` under `mut_num`.

The model takes any list of jobs and any number of workers.  Thread `0` is
`main` once it has started the workers, thread `worker + 1` runs `thr_primer`.
-/

namespace LearnApue.Para.PrimerPool

open LearnApue.Foundation LearnApue.Foundation.CondVar

/-! ## The sections under `mut_num` -/

/-- What a thread does under `mut_num`: a worker takes a job, `main` hands one
out, `main` ends the pool. -/
inductive PoolSection where
  | take
  | give (i : Int)
  | finish
deriving DecidableEq, Repr

/-- `cond_job` and `cond_empty`. -/
inductive PoolCond where
  | condJob
  | condEmpty
deriving DecidableEq, Repr

/-- How a section ended. -/
inductive PoolResult where
  | took (i : Int)
  | left
  | given
  | finished
deriving DecidableEq, Repr

/-- The sections of `thr_primer` and `main` on `num`. -/
def poolPass : PoolSection → Int → Pass Int PoolCond PoolResult
  | .take, num =>
      if num = 0 then .wait .condJob
      else if num = -1 then .done num .left .silent
      else .done 0 (.took num) (.signal .condEmpty)
  | .give i, num =>
      if num ≠ 0 then .wait .condEmpty else .done i .given (.signal .condJob)
  | .finish, num =>
      if num ≠ 0 then .wait .condEmpty else .done (-1) .finished (.broadcast .condJob)

/-! ## What a worker computes -/

/-- The loop `for (j = 2; j <= i / j; j++)`, from some `j` on: whether `mark`
stays `1`. -/
def markFrom (i j : Nat) : Bool :=
  if j ≤ i / j then
    if i % j = 0 then false else markFrom i (j + 1)
  else true
termination_by i + 1 - j
decreasing_by
  have hle : i / j ≤ i := Nat.div_le_self i j
  omega

/-- `mark` after the loop. -/
def mark (i : Int) : Bool := markFrom i.toNat 2

theorem markFrom_eq_true (i j : Nat) :
    markFrom i j = true ↔ ∀ divisor, j ≤ divisor → divisor ≤ i / divisor → ¬ divisor ∣ i := by
  induction j using markFrom.induct i with
  | case1 j hle hdvd =>
    rw [markFrom, if_pos hle, if_pos hdvd]
    exact ⟨nofun, fun h => absurd (Nat.dvd_of_mod_eq_zero hdvd) (h j le_rfl hle)⟩
  | case2 j hle hmod ih =>
    rw [markFrom, if_pos hle, if_neg hmod, ih]
    refine ⟨fun h divisor hj hsmall hdvd => ?_, fun h divisor hj => h divisor (by omega)⟩
    rcases eq_or_lt_of_le hj with rfl | hlt
    · exact hmod (Nat.mod_eq_zero_of_dvd hdvd)
    · exact h divisor hlt hsmall hdvd
  | case3 j hle =>
    rw [markFrom, if_neg hle]
    refine ⟨fun _ divisor hj hsmall => ?_, fun _ => rfl⟩
    have hpos : 0 < j := Nat.pos_of_ne_zero fun hzero => hle (by rw [hzero]; exact Nat.zero_le _)
    have hdiv : i / divisor ≤ i / j := Nat.div_le_div_left hj hpos
    omega

/-- From `2` on, `mark` tells the primes from the other jobs. -/
theorem mark_iff_prime {i : Int} (h : 2 ≤ i) : mark i = true ↔ i.toNat.Prime := by
  have htwo : 2 ≤ i.toNat := by omega
  unfold mark
  rw [markFrom_eq_true, Nat.prime_def_le_sqrt]
  have hsqrt : ∀ divisor, 2 ≤ divisor →
      (divisor ≤ i.toNat / divisor ↔ divisor ≤ i.toNat.sqrt) := by
    intro divisor hdivisor
    rw [Nat.le_sqrt, Nat.le_div_iff_mul_le (by omega)]
  constructor
  · intro hnone
    exact ⟨htwo, fun divisor hdivisor hle => hnone divisor hdivisor ((hsqrt divisor hdivisor).mpr hle)⟩
  · rintro ⟨-, hnone⟩ divisor hdivisor hle
    exact hnone divisor hdivisor ((hsqrt divisor hdivisor).mp hle)

/-! ## The pool -/

/-- Where `main` stands: it hands out the jobs of a list and then ends the pool,
or it has joined a number of workers. -/
inductive MainAt where
  | giving (rest : List Int)
  | joining (count : Nat)
deriving DecidableEq, Repr

/-- Where a worker stands: at the lock of its loop or inside the section, outside
the mutex with a job, or behind its loop. -/
inductive WorkerAt where
  | looping
  | computing (i : Int)
  | left
deriving DecidableEq, Repr

/-- The threads and `num`, where each thread stands, and the lines printed: the
worker's number and its prime. -/
structure Pool where
  system : System Int PoolCond PoolSection PoolResult
  main : MainAt
  workers : List WorkerAt
  printed : List (Nat × Int)
deriving DecidableEq, Repr

/-- The pool when `main` has started its workers. -/
def poolStart (jobs : List Int) (workers : Nat) : Pool :=
  ⟨start 0 (workers + 1), .giving jobs, List.replicate workers .looping, []⟩

/-- The section at which a thread stands. -/
def Pool.section (pool : Pool) : Nat → Option PoolSection
  | 0 =>
      match pool.main with
      | .giving (i :: _) => some (.give i)
      | .giving [] => some .finish
      | .joining _ => none
  | worker + 1 =>
      match pool.workers[worker]? with
      | some .looping => some .take
      | _ => none

/-- A thread goes on behind a section that ended. -/
def Pool.goOn (pool : Pool) (entry : Finished PoolSection PoolResult) : Pool :=
  match entry.result with
  | .took i => { pool with workers := pool.workers.set (entry.thread - 1) (.computing i) }
  | .left => { pool with workers := pool.workers.set (entry.thread - 1) .left }
  | .given =>
      match pool.main with
      | .giving rest => { pool with main := .giving rest.tail }
      | .joining _ => pool
  | .finished => { pool with main := .joining 0 }

/-- What can happen: an event of the sections, a worker that ends its
computation, or `main` joining its next worker. -/
inductive PoolEvent where
  | mutex (event : Event PoolSection)
  | compute (worker : Nat)
  | join
deriving DecidableEq, Repr

/-- A thread that locks the mutex runs the section at which it stands. -/
def Pool.permits (pool : Pool) : Event PoolSection → Bool
  | .call thread task _ => pool.section thread = some task
  | _ => true

/-- One event, when it is possible. -/
def poolStep (pool : Pool) : PoolEvent → Option Pool
  | .mutex event =>
      if pool.permits event then
        (step poolPass pool.system event).map fun system =>
          (system.log.drop pool.system.log.length).foldl Pool.goOn { pool with system := system }
      else none
  | .compute worker =>
      match pool.workers[worker]? with
      | some (.computing i) =>
          some { pool with
            workers := pool.workers.set worker .looping
            printed := if mark i then pool.printed ++ [(worker, i)] else pool.printed }
      | _ => none
  | .join =>
      match pool.main with
      | .joining count =>
          if pool.workers[count]? = some .left then some { pool with main := .joining (count + 1) }
          else none
      | .giving _ => none

/-- The pool after a sequence of events. -/
def poolRun (pool : Pool) (events : List PoolEvent) : Pool :=
  EventMachine.run poolStep pool events

/-- `main` joined every worker, and every worker left its loop. -/
def Pool.Over (pool : Pool) : Prop :=
  pool.main = .joining pool.workers.length ∧ ∀ place ∈ pool.workers, place = .left

/-- The event is an action of the thread itself, not a wake-up. -/
def PoolEvent.by : PoolEvent → Nat → Prop
  | .mutex (.call own _ _), thread => own = thread
  | .mutex (.resume own _), thread => own = thread
  | .mutex (.spurious _), _ => False
  | .compute worker, thread => worker + 1 = thread
  | .join, thread => thread = 0

/-- Whatever the thread does next has to wait for another thread. -/
def Pool.Blocked (pool : Pool) (thread : Nat) : Prop :=
  ∀ event, event.by thread → poolStep pool event = none

/-- The jobs taken by the sections that ended, in their order. -/
def taken (log : List (Finished PoolSection PoolResult)) : List Int :=
  log.filterMap fun entry =>
    match entry.result with
    | .took i => some i
    | _ => none

/-- The jobs handed out by the sections that ended, in their order. -/
def given (log : List (Finished PoolSection PoolResult)) : List Int :=
  log.filterMap fun entry =>
    match entry.task with
    | .give i => some i
    | _ => none

/-! ## What one event can do -/

/-- A thread is about to run a section: it stands at one and is idle, or it was
woken inside it. -/
def Pool.Reaches (pool : Pool) (thread : Nat) (task : PoolSection) : Prop :=
  (pool.system.threads[thread]? = some .idle ∧ pool.section thread = some task) ∨
    pool.system.threads[thread]? = some (.woken task)

/-- The pool behind a section that was done. -/
def Pool.behind (pool : Pool) (num : Int) (threads : List (Thread PoolCond PoolSection))
    (entry : Finished PoolSection PoolResult) : Pool :=
  Pool.goOn { pool with system :=
    { pool.system with
      shared := num
      threads := threads
      log := pool.system.log ++ [entry] } } entry

theorem poolPass_ne_fault (task : PoolSection) (num : Int) : poolPass task num ≠ .fault := by
  intro h
  cases task with
  | take =>
    simp only [poolPass] at h
    split at h
    · cases h
    · split at h
      · cases h
      · cases h
  | give i =>
    simp only [poolPass] at h
    split at h
    · cases h
    · cases h
  | finish =>
    simp only [poolPass] at h
    split at h
    · cases h
    · cases h

/-- Everything an event can do: a thread is woken for no reason, a section ends
in a wait set or is done, a worker ends its computation, or `main` joins a
worker. -/
theorem poolStep_cases {pool next : Pool} {event : PoolEvent}
    (h : poolStep pool event = some next) :
    (∃ thread cond task, pool.system.threads[thread]? = some (.waiting cond task) ∧
        next = { pool with system :=
          { pool.system with threads := pool.system.threads.set thread (.woken task) } }) ∨
    (∃ thread task cond, pool.Reaches thread task ∧ poolPass task pool.system.shared = .wait cond ∧
        next = { pool with system :=
          { pool.system with threads := pool.system.threads.set thread (.waiting cond task) } }) ∨
    (∃ thread task chosen num result notify threads, pool.Reaches thread task ∧
        poolPass task pool.system.shared = .done num result notify ∧
        deliver chosen (pool.system.threads.set thread .idle) notify = some threads ∧
        next = pool.behind num threads ⟨thread, task, result⟩) ∨
    (∃ worker i, pool.workers[worker]? = some (.computing i) ∧
        next = { pool with
          workers := pool.workers.set worker .looping
          printed := if mark i then pool.printed ++ [(worker, i)] else pool.printed }) ∨
    ∃ count, pool.main = .joining count ∧ pool.workers[count]? = some .left ∧
        next = { pool with main := .joining (count + 1) } := by
  cases event with
  | mutex event =>
    simp only [poolStep] at h
    split at h
    · rename_i hpermits
      obtain ⟨system, hstep, hnext⟩ := Option.map_eq_some_iff.mp h
      obtain ⟨-, ⟨thread, cond, task, hwaiting, rfl⟩ | ⟨thread, task, chosen, hthread, hpass⟩⟩ :=
        step_cases hstep
      · left
        refine ⟨thread, cond, task, hwaiting, ?_⟩
        rw [← hnext, List.drop_length]
        rfl
      · have hreaches : pool.Reaches thread task := by
          rcases hthread with ⟨hidle, rfl⟩ | hwoken
          · exact Or.inl ⟨hidle, of_decide_eq_true hpermits⟩
          · exact Or.inr hwoken
        right
        obtain ⟨hfault, -⟩ | ⟨cond, hwait, rfl⟩ |
          ⟨num, result, notify, threads, hdone, hdeliver, rfl⟩ := pass_cases hpass
        · exact absurd hfault (poolPass_ne_fault task _)
        · left
          refine ⟨thread, task, cond, hreaches, hwait, ?_⟩
          rw [← hnext, List.drop_length]
          rfl
        · right
          left
          refine ⟨thread, task, chosen, num, result, notify, threads, hreaches, hdone, hdeliver, ?_⟩
          rw [← hnext, List.drop_left]
          rfl
    · cases h
  | compute worker =>
    simp only [poolStep] at h
    split at h
    · rename_i i hcomputing
      right
      right
      right
      left
      exact ⟨worker, i, hcomputing, (Option.some.inj h).symm⟩
    · cases h
  | join =>
    simp only [poolStep] at h
    split at h
    · rename_i count hjoining
      split at h
      · rename_i hleft
        right
        right
        right
        right
        exact ⟨count, hjoining, hleft, (Option.some.inj h).symm⟩
      · cases h
    · cases h

/-! ## The invariant -/

/-- The condition variable on which a section waits. -/
def PoolSection.cond : PoolSection → PoolCond
  | .take => .condJob
  | .give _ => .condEmpty
  | .finish => .condEmpty

/-- A thread that waits or was woken does so in the section at which it stands. -/
def Posted (own : Option PoolSection) : Thread PoolCond PoolSection → Prop
  | .idle => True
  | .waiting cond task => own = some task ∧ cond = task.cond
  | .woken task => own = some task

/-- How `num` stands to the jobs that were handed out and taken. -/
def Slot (jobs : List Int) (num : Int) (log : List (Finished PoolSection PoolResult)) :
    MainAt → Prop
  | .giving rest => given log ++ rest = jobs ∧
      ((num = 0 ∧ taken log = given log) ∨ (0 < num ∧ taken log ++ [num] = given log))
  | .joining _ => num = -1 ∧ given log = jobs ∧ taken log = jobs

/-- Nobody waits for what `num` gives: `main` does not wait for an empty slot
while it is empty, some worker is awake while there is a job, and none waits for
a job after the end. -/
structure Awake (num : Int) (threads : List (Thread PoolCond PoolSection)) : Prop where
  main : num = 0 → ∀ cond task, threads[0]? ≠ some (.waiting cond task)
  worker : 0 < num → ∃ worker, worker + 1 < threads.length ∧
    ∀ cond task, threads[worker + 1]? ≠ some (.waiting cond task)
  workers : num = -1 → ∀ (worker : Nat) cond task,
    threads[worker + 1]? ≠ some (.waiting cond task)

/-- What a section that ended found in the sections before it. -/
def Entered (jobs : List Int) (workers : Nat) (before : List (Finished PoolSection PoolResult))
    (entry : Finished PoolSection PoolResult) : Prop :=
  match entry.result with
  | .took i => jobs[(taken before).length]? = some i ∧
      ∃ worker, worker < workers ∧ entry.thread = worker + 1
  | .left => taken before = jobs
  | .given => taken before = given before
  | .finished => taken before = given before

/-- The pools that runs on `jobs` with some number of workers stay in. -/
structure PoolInv (jobs : List Int) (workers : Nat) (pool : Pool) : Prop where
  fault : pool.system.fault = false
  workersLength : pool.workers.length = workers
  threadsLength : pool.system.threads.length = workers + 1
  posted : ∀ (thread : Nat) state, pool.system.threads[thread]? = some state →
    Posted (pool.section thread) state
  slot : Slot jobs pool.system.shared pool.system.log pool.main
  stays : ∀ rest, pool.main = .giving rest → WorkerAt.left ∉ pool.workers
  joined : ∀ count, pool.main = .joining count → count ≤ workers
  awake : Awake pool.system.shared pool.system.threads
  log : EventMachine.Justified (Entered jobs workers) pool.system.log

/-! ### The sections at which threads stand -/

theorem section_take {pool : Pool} {thread : Nat} (h : pool.section thread = some .take) :
    ∃ worker, thread = worker + 1 ∧ pool.workers[worker]? = some .looping := by
  cases thread with
  | zero =>
    simp only [Pool.section] at h
    split at h
    · cases h
    · cases h
    · cases h
  | succ worker =>
    simp only [Pool.section] at h
    split at h
    · rename_i hlooping
      exact ⟨worker, rfl, hlooping⟩
    · cases h

theorem section_give {pool : Pool} {thread : Nat} {i : Int}
    (h : pool.section thread = some (.give i)) :
    thread = 0 ∧ ∃ rest, pool.main = .giving (i :: rest) := by
  cases thread with
  | zero =>
    simp only [Pool.section] at h
    split at h
    · rename_i job rest hmain
      cases h
      exact ⟨rfl, rest, hmain⟩
    · cases h
    · cases h
  | succ worker =>
    simp only [Pool.section] at h
    split at h
    · cases h
    · cases h

theorem section_finish {pool : Pool} {thread : Nat} (h : pool.section thread = some .finish) :
    thread = 0 ∧ pool.main = .giving [] := by
  cases thread with
  | zero =>
    simp only [Pool.section] at h
    split at h
    · cases h
    · rename_i hmain
      exact ⟨rfl, hmain⟩
    · cases h
  | succ worker =>
    simp only [Pool.section] at h
    split at h
    · cases h
    · cases h

/-- The thread that runs a section stands at it and waits for nothing. -/
theorem PoolInv.reaches {jobs : List Int} {workers : Nat} {pool : Pool}
    (hinv : PoolInv jobs workers pool) {thread : Nat} {task : PoolSection}
    (h : pool.Reaches thread task) :
    pool.section thread = some task ∧ thread < pool.system.threads.length ∧
      ∀ cond task, pool.system.threads[thread]? ≠ some (.waiting cond task) := by
  rcases h with ⟨hidle, hsection⟩ | hwoken
  · refine ⟨hsection, (List.getElem?_eq_some_iff.mp hidle).1, fun cond task hwaiting => ?_⟩
    rw [hidle] at hwaiting
    cases hwaiting
  · refine ⟨hinv.posted thread _ hwoken, (List.getElem?_eq_some_iff.mp hwoken).1,
      fun cond task hwaiting => ?_⟩
    rw [hwoken] at hwaiting
    cases hwaiting

/-! ### Wake-ups and waits -/

/-- Wake-ups leave nobody waiting for what `num` gives. -/
theorem Awake.woken {num : Int} {threads after : List (Thread PoolCond PoolSection)}
    (h : Awake num threads) (hwoken : Woken threads after) : Awake num after where
  main := fun hnum cond task hwaiting => h.main hnum cond task (hwoken.waiting hwaiting)
  worker := by
    intro hnum
    obtain ⟨worker, hlt, hawake⟩ := h.worker hnum
    refine ⟨worker, by rw [hwoken.length]; exact hlt, fun cond task hwaiting => ?_⟩
    exact hawake cond task (hwoken.waiting hwaiting)
  workers := fun hnum worker cond task hwaiting =>
    h.workers hnum worker cond task (hwoken.waiting hwaiting)

theorem posted_woken {pool : Pool} {threads after : List (Thread PoolCond PoolSection)}
    (h : ∀ (thread : Nat) state, threads[thread]? = some state →
      Posted (pool.section thread) state)
    (hwoken : Woken threads after) :
    ∀ (thread : Nat) state, after[thread]? = some state →
      Posted (pool.section thread) state := by
  intro thread state hstate
  rcases hwoken.each thread with hsame | ⟨cond, task, hwaiting, hafter⟩
  · exact h thread state (hsame ▸ hstate)
  · rw [hafter] at hstate
    cases hstate
    exact (h thread _ hwaiting).1

/-- A wake-up for no reason keeps the invariant. -/
theorem PoolInv.wake {jobs : List Int} {workers : Nat} {pool : Pool}
    (hinv : PoolInv jobs workers pool) {thread : Nat} {cond : PoolCond} {task : PoolSection}
    (h : pool.system.threads[thread]? = some (.waiting cond task)) :
    PoolInv jobs workers { pool with system :=
      { pool.system with threads := pool.system.threads.set thread (.woken task) } } where
  fault := hinv.fault
  workersLength := hinv.workersLength
  threadsLength := by
    rw [List.length_set]
    exact hinv.threadsLength
  posted := @posted_woken pool _ _ hinv.posted (woken_set h)
  slot := hinv.slot
  stays := hinv.stays
  joined := hinv.joined
  awake := hinv.awake.woken (woken_set h)
  log := hinv.log

/-- A section that ends in a wait set does so on its own condition variable: a
worker when the slot is empty, `main` when it is not. -/
theorem poolPass_wait {task : PoolSection} {num : Int} {cond : PoolCond}
    (h : poolPass task num = .wait cond) :
    cond = task.cond ∧ ((task = .take ∧ num = 0) ∨ (task ≠ .take ∧ num ≠ 0)) := by
  cases task with
  | take =>
    simp only [poolPass] at h
    split at h
    · rename_i hnum
      cases h
      exact ⟨rfl, Or.inl ⟨rfl, hnum⟩⟩
    · split at h
      · cases h
      · cases h
  | give i =>
    simp only [poolPass] at h
    split at h
    · rename_i hnum
      cases h
      exact ⟨rfl, Or.inr ⟨nofun, hnum⟩⟩
    · cases h
  | finish =>
    simp only [poolPass] at h
    split at h
    · rename_i hnum
      cases h
      exact ⟨rfl, Or.inr ⟨nofun, hnum⟩⟩
    · cases h

/-- `main` is the thread of a section that is no worker's. -/
theorem eq_zero_of_section {pool : Pool} {thread : Nat} {task : PoolSection}
    (h : pool.section thread = some task) (htask : task ≠ .take) :
    thread = 0 ∧ ∃ rest, pool.main = .giving rest := by
  cases task with
  | take => exact absurd rfl htask
  | give i =>
    obtain ⟨hthread, rest, hmain⟩ := section_give h
    exact ⟨hthread, i :: rest, hmain⟩
  | finish =>
    obtain ⟨hthread, hmain⟩ := section_finish h
    exact ⟨hthread, [], hmain⟩

/-- `num` is `-1` only behind the jobs. -/
theorem Slot.num_ne {jobs rest : List Int} {num : Int}
    {log : List (Finished PoolSection PoolResult)} (h : Slot jobs num log (.giving rest)) :
    num ≠ -1 := by
  obtain ⟨-, ⟨hnum, -⟩ | ⟨hnum, -⟩⟩ := h
  · omega
  · omega

/-- A section that ends in a wait set keeps the invariant. -/
theorem PoolInv.wait {jobs : List Int} {workers : Nat} {pool : Pool}
    (hinv : PoolInv jobs workers pool) {thread : Nat} {task : PoolSection} {cond : PoolCond}
    (hreaches : pool.Reaches thread task) (h : poolPass task pool.system.shared = .wait cond) :
    PoolInv jobs workers { pool with system :=
      { pool.system with threads := pool.system.threads.set thread (.waiting cond task) } } := by
  obtain ⟨hsection, hlt, -⟩ := hinv.reaches hreaches
  obtain ⟨hcond, hnum⟩ := poolPass_wait h
  have hother : ∀ {other : Nat} {own : PoolCond} {waiter : PoolSection}, other ≠ thread →
      (pool.system.threads.set thread (.waiting cond task))[other]? = some (.waiting own waiter) →
      pool.system.threads[other]? = some (.waiting own waiter) := by
    intro other own waiter hne hwaiting
    rwa [List.getElem?_set_ne hne.symm] at hwaiting
  refine ⟨hinv.fault, hinv.workersLength, ?_, ?_, hinv.slot, hinv.stays, hinv.joined, ⟨?_, ?_, ?_⟩,
    hinv.log⟩
  · rw [List.length_set]
    exact hinv.threadsLength
  · intro other state hstate
    rcases eq_or_ne thread other with rfl | hne
    · rw [List.getElem?_set_self hlt] at hstate
      cases hstate
      exact ⟨hsection, hcond⟩
    · rw [List.getElem?_set_ne hne] at hstate
      exact hinv.posted other state hstate
  · intro hzero own waiter hwaiting
    rcases hnum with ⟨rfl, -⟩ | ⟨-, hne⟩
    · obtain ⟨worker, rfl, -⟩ := section_take hsection
      exact hinv.awake.main hzero own waiter (hother (by omega) hwaiting)
    · exact hne hzero
  · intro hpos
    obtain ⟨worker, hworker, hawake⟩ := hinv.awake.worker hpos
    refine ⟨worker, by rw [List.length_set]; exact hworker, fun own waiter hwaiting => ?_⟩
    rcases hnum with ⟨-, hzero⟩ | ⟨htask, -⟩
    · exact absurd hzero hpos.ne'
    · obtain ⟨rfl, -⟩ := eq_zero_of_section hsection htask
      exact hawake own waiter (hother (by omega) hwaiting)
  · intro hend worker own waiter hwaiting
    rcases hnum with ⟨-, hzero⟩ | ⟨htask, -⟩
    · exact absurd (hend.symm.trans hzero) (by decide)
    · obtain ⟨rfl, rest, hmain⟩ := eq_zero_of_section hsection htask
      have hslot := hinv.slot
      rw [hmain] at hslot
      exact hslot.num_ne hend

/-! ### Sections that are done -/

/-- Everything a section that is done can have been: a worker left or took the
job, `main` handed one out or ended the pool. -/
theorem poolPass_done {task : PoolSection} {num next : Int} {result : PoolResult}
    {notify : Notify PoolCond} (h : poolPass task num = .done next result notify) :
    (task = .take ∧ num = -1 ∧ next = -1 ∧ result = .left ∧ notify = .silent) ∨
    (task = .take ∧ num ≠ 0 ∧ num ≠ -1 ∧ next = 0 ∧ result = .took num ∧
      notify = .signal .condEmpty) ∨
    (∃ i, task = .give i ∧ num = 0 ∧ next = i ∧ result = .given ∧ notify = .signal .condJob) ∨
    (task = .finish ∧ num = 0 ∧ next = -1 ∧ result = .finished ∧
      notify = .broadcast .condJob) := by
  cases task with
  | take =>
    simp only [poolPass] at h
    split at h
    · cases h
    · rename_i hnum
      split at h
      · rename_i hend
        cases h
        exact Or.inl ⟨rfl, hend, hend, rfl, rfl⟩
      · rename_i hend
        cases h
        exact Or.inr (Or.inl ⟨rfl, hnum, hend, rfl, rfl, rfl⟩)
  | give i =>
    simp only [poolPass] at h
    split at h
    · cases h
    · rename_i hzero
      cases h
      exact Or.inr (Or.inr (Or.inl ⟨_, rfl, not_not.mp hzero, rfl, rfl, rfl⟩))
  | finish =>
    simp only [poolPass] at h
    split at h
    · cases h
    · rename_i hzero
      cases h
      exact Or.inr (Or.inr (Or.inr ⟨rfl, not_not.mp hzero, rfl, rfl, rfl⟩))

@[simp] theorem taken_append (log : List (Finished PoolSection PoolResult))
    (entry : Finished PoolSection PoolResult) :
    taken (log ++ [entry]) = taken log ++ taken [entry] :=
  List.filterMap_append

@[simp] theorem given_append (log : List (Finished PoolSection PoolResult))
    (entry : Finished PoolSection PoolResult) :
    given (log ++ [entry]) = given log ++ given [entry] :=
  List.filterMap_append

/-- Behind a section that was done its thread is idle, some waiting threads were
woken and the others are as before. -/
theorem waiting_of_behind {threads after : List (Thread PoolCond PoolSection)} {thread : Nat}
    (hwoken : Woken (threads.set thread .idle) after) {other : Nat} {cond : PoolCond}
    {task : PoolSection} (h : after[other]? = some (.waiting cond task)) :
    threads[other]? = some (.waiting cond task) := by
  have hset := hwoken.waiting h
  rcases eq_or_ne thread other with rfl | hne
  · rw [List.getElem?_set_self'] at hset
    cases hthread : threads[thread]? with
    | none =>
      rw [hthread] at hset
      cases hset
    | some state =>
      rw [hthread] at hset
      cases hset
  · rwa [List.getElem?_set_ne hne] at hset

theorem posted_behind {pool after : Pool} {threads : List (Thread PoolCond PoolSection)}
    {thread : Nat} (hthread : thread < pool.system.threads.length)
    (hposted : ∀ (other : Nat) state, pool.system.threads[other]? = some state →
      Posted (pool.section other) state)
    (hwoken : Woken (pool.system.threads.set thread .idle) threads)
    (hsection : ∀ other, other ≠ thread → after.section other = pool.section other) :
    ∀ (other : Nat) state, threads[other]? = some state →
      Posted (after.section other) state := by
  intro other state hstate
  rcases hwoken.each other with hsame | ⟨cond, task, hwaiting, hafter⟩
  · rcases eq_or_ne thread other with rfl | hne
    · rw [hsame, List.getElem?_set_self hthread] at hstate
      cases hstate
      trivial
    · rw [hsame, List.getElem?_set_ne hne] at hstate
      rw [hsection other hne.symm]
      exact hposted other state hstate
  · rcases eq_or_ne thread other with rfl | hne
    · rw [List.getElem?_set_self hthread] at hwaiting
      cases hwaiting
    · rw [hafter] at hstate
      cases hstate
      rw [List.getElem?_set_ne hne] at hwaiting
      rw [hsection other hne.symm]
      exact (hposted other _ hwaiting).1

/-- `main` waits on `cond_empty`, the workers wait on `cond_job`. -/
theorem PoolInv.waits {jobs : List Int} {workers : Nat} {pool : Pool}
    (hinv : PoolInv jobs workers pool) {thread : Nat} {cond : PoolCond} {task : PoolSection}
    (h : pool.system.threads[thread]? = some (.waiting cond task)) :
    (thread = 0 ↔ cond = .condEmpty) ∧ (thread ≠ 0 ↔ cond = .condJob) := by
  obtain ⟨hsection, rfl⟩ := hinv.posted thread _ h
  cases task with
  | take =>
    obtain ⟨worker, rfl, -⟩ := section_take hsection
    simp [PoolSection.cond]
  | give i =>
    obtain ⟨rfl, -⟩ := section_give hsection
    simp [PoolSection.cond]
  | finish =>
    obtain ⟨rfl, -⟩ := section_finish hsection
    simp [PoolSection.cond]

/-- A worker that goes on moves no other thread. -/
theorem section_behind_take {pool : Pool} {num : Int}
    {threads : List (Thread PoolCond PoolSection)} {worker other : Nat} {result : PoolResult}
    (hne : other ≠ worker + 1) (hresult : result = .left ∨ ∃ job, result = .took job) :
    (pool.behind num threads ⟨worker + 1, .take, result⟩).section other = pool.section other := by
  cases other with
  | zero => rcases hresult with rfl | ⟨job, rfl⟩ <;> rfl
  | succ other =>
    have hworker : worker ≠ other := fun heq => hne (by rw [heq])
    rcases hresult with rfl | ⟨job, rfl⟩
    · simp only [Pool.behind, Pool.goOn, Pool.section, Nat.add_sub_cancel,
        List.getElem?_set_ne hworker]
    · simp only [Pool.behind, Pool.goOn, Pool.section, Nat.add_sub_cancel,
        List.getElem?_set_ne hworker]

/-- A worker that leaves its loop found the end. -/
theorem PoolInv.behind_left {jobs : List Int} {workers : Nat} {pool : Pool}
    (hinv : PoolInv jobs workers pool) {thread : Nat} {threads : List (Thread PoolCond PoolSection)}
    (hsection : pool.section thread = some .take) (hlt : thread < pool.system.threads.length)
    (hend : pool.system.shared = -1)
    (hwoken : Woken (pool.system.threads.set thread .idle) threads) :
    PoolInv jobs workers (pool.behind (-1) threads ⟨thread, .take, .left⟩) := by
  obtain ⟨worker, rfl, -⟩ := section_take hsection
  obtain ⟨count, hmain⟩ : ∃ count, pool.main = .joining count := by
    cases hmain : pool.main with
    | joining count => exact ⟨count, rfl⟩
    | giving rest =>
      have hslot := hinv.slot
      rw [hmain] at hslot
      exact absurd hend hslot.num_ne
  have hslot := hinv.slot
  rw [hmain] at hslot
  obtain ⟨-, hgiven, htaken⟩ := hslot
  refine ⟨hinv.fault, ?_, ?_, ?_, ?_, ?_, hinv.joined, ⟨nofun, nofun, ?_⟩, ?_⟩
  · exact List.length_set.trans hinv.workersLength
  · exact hwoken.length.trans (List.length_set.trans hinv.threadsLength)
  · exact posted_behind hlt hinv.posted hwoken fun other hne =>
      section_behind_take hne (Or.inl rfl)
  · show Slot jobs (-1) (pool.system.log ++ [_]) pool.main
    rw [hmain]
    refine ⟨rfl, ?_, ?_⟩
    · rw [given_append, hgiven]
      exact List.append_nil jobs
    · rw [taken_append, htaken]
      exact List.append_nil jobs
  · intro rest hgiving
    rw [show pool.main = .giving rest from hgiving] at hmain
    cases hmain
  · intro _ other cond task hwaiting
    exact hinv.awake.workers hend other cond task (waiting_of_behind hwoken hwaiting)
  · exact hinv.log.concat htaken

/-- A worker that takes a job takes the one that was handed out last, and
`main` hears of it. -/
theorem PoolInv.behind_took {jobs : List Int} {workers : Nat} {pool : Pool}
    (hinv : PoolInv jobs workers pool) {thread chosen : Nat}
    {threads : List (Thread PoolCond PoolSection)}
    (hreaches : pool.Reaches thread .take) (hnum : pool.system.shared ≠ 0)
    (hend : pool.system.shared ≠ -1)
    (hdeliver : deliver chosen (pool.system.threads.set thread .idle) (.signal .condEmpty) =
      some threads) :
    PoolInv jobs workers (pool.behind 0 threads ⟨thread, .take, .took pool.system.shared⟩) := by
  obtain ⟨hsection, hlt, -⟩ := hinv.reaches hreaches
  obtain ⟨worker, rfl, hlooping⟩ := section_take hsection
  have hwoken := woken_of_deliver hdeliver
  obtain ⟨rest, hmain⟩ : ∃ rest, pool.main = .giving rest := by
    cases hmain : pool.main with
    | giving rest => exact ⟨rest, rfl⟩
    | joining count =>
      have hslot := hinv.slot
      rw [hmain] at hslot
      exact absurd hslot.1 hend
  have hslot := hinv.slot
  rw [hmain] at hslot
  obtain ⟨hjobs, ⟨heq, -⟩ | ⟨-, htaken⟩⟩ := hslot
  · exact absurd heq hnum
  refine ⟨hinv.fault, ?_, ?_, ?_, ?_, ?_, hinv.joined, ⟨?_, nofun, nofun⟩, ?_⟩
  · exact List.length_set.trans hinv.workersLength
  · exact hwoken.length.trans (List.length_set.trans hinv.threadsLength)
  · exact posted_behind hlt hinv.posted hwoken fun other hne =>
      section_behind_take hne (Or.inr ⟨_, rfl⟩)
  · show Slot jobs 0 (pool.system.log ++ [_]) pool.main
    rw [hmain]
    have hgiven : given (pool.system.log ++ [⟨worker + 1, .take, .took pool.system.shared⟩]) =
        given pool.system.log := by
      rw [given_append]
      exact List.append_nil _
    refine ⟨by rw [hgiven, hjobs], Or.inl ⟨rfl, ?_⟩⟩
    rw [hgiven, taken_append]
    exact htaken
  · intro other _ hleft
    rcases List.mem_or_eq_of_mem_set hleft with hmem | heq
    · exact hinv.stays rest hmain hmem
    · cases heq
  · intro _ cond task hwaiting
    have hbefore := waiting_of_behind hwoken hwaiting
    obtain rfl : cond = .condEmpty := (hinv.waits hbefore).1.mp rfl
    rcases signal_wakes hdeliver with ⟨index, waiter, hindex, hafter⟩ | hnobody
    · have hset := @waiting_of_behind _ _ _ ⟨rfl, fun _ => Or.inl rfl⟩ _ _ _ hindex
      obtain rfl : index = 0 := (hinv.waits hset).1.mpr rfl
      exact nomatch hafter.symm.trans hwaiting
    · exact hnobody 0 task (hwoken.waiting hwaiting)
  · refine hinv.log.concat ⟨?_, worker, ?_, rfl⟩
    · rw [← hjobs, ← htaken]
      simp
    · rw [← hinv.workersLength]
      exact (List.getElem?_eq_some_iff.mp hlooping).1

/-- What `main` does changes no section of a worker. -/
theorem section_of_workers {pool after : Pool} (hworkers : after.workers = pool.workers) {other : Nat}
    (hne : other ≠ 0) : after.section other = pool.section other := by
  cases other with
  | zero => exact absurd rfl hne
  | succ worker =>
    simp only [Pool.section]
    rw [hworkers]

/-- While `main` hands jobs out and the slot is empty, all that it handed out were taken. -/
theorem PoolInv.taken_of_empty {jobs rest : List Int} {workers : Nat} {pool : Pool}
    (hinv : PoolInv jobs workers pool) (hmain : pool.main = .giving rest)
    (hzero : pool.system.shared = 0) :
    given pool.system.log ++ rest = jobs ∧ taken pool.system.log = given pool.system.log := by
  have hslot := hinv.slot
  rw [hmain] at hslot
  obtain ⟨hjobs, ⟨-, htaken⟩ | ⟨hnum, -⟩⟩ := hslot
  · exact ⟨hjobs, htaken⟩
  · omega

/-- `main` hands a job out when all the jobs before it were taken, and a worker
that waits for one hears of it. -/
theorem PoolInv.behind_given {jobs : List Int} {workers : Nat} {pool : Pool}
    (hinv : PoolInv jobs workers pool) (hpos : ∀ job ∈ jobs, 0 < job) (hworkers : 0 < workers)
    {thread chosen : Nat} {i : Int} {threads : List (Thread PoolCond PoolSection)}
    (hreaches : pool.Reaches thread (.give i)) (hzero : pool.system.shared = 0)
    (hdeliver : deliver chosen (pool.system.threads.set thread .idle) (.signal .condJob) =
      some threads) :
    PoolInv jobs workers (pool.behind i threads ⟨thread, .give i, .given⟩) := by
  obtain ⟨hsection, hlt, -⟩ := hinv.reaches hreaches
  obtain ⟨rfl, rest, hmain⟩ := section_give hsection
  have hwoken := woken_of_deliver hdeliver
  obtain ⟨hjobs, htaken⟩ := hinv.taken_of_empty hmain hzero
  have hi : 0 < i := hpos i (by rw [← hjobs]; simp)
  have hbehind : pool.behind i threads ⟨0, .give i, .given⟩ =
      { pool with
        system := { pool.system with
          shared := i
          threads := threads
          log := pool.system.log ++ [⟨0, .give i, .given⟩] }
        main := .giving rest } := by
    simp only [Pool.behind, Pool.goOn, hmain, List.tail_cons]
  have hlength : threads.length = workers + 1 :=
    hwoken.length.trans (List.length_set.trans hinv.threadsLength)
  rw [hbehind]
  refine ⟨hinv.fault, hinv.workersLength, hlength, ?_, ?_, ?_, nofun, ⟨?_, ?_, ?_⟩, ?_⟩
  · refine posted_behind hlt hinv.posted hwoken fun other hne => section_of_workers ?_ hne
    rfl
  · refine ⟨?_, Or.inr ⟨hi, ?_⟩⟩
    · rw [given_append, List.append_assoc]
      exact hjobs
    · rw [taken_append, given_append, ← htaken]
      exact congrArg (· ++ [i]) (List.append_nil _)
  · exact fun other _ => hinv.stays (i :: rest) hmain
  · exact fun heq => absurd heq hi.ne'
  · intro _
    rcases signal_wakes hdeliver with ⟨index, waiter, hindex, hafter⟩ | hnobody
    · have hset := @waiting_of_behind _ _ _ ⟨rfl, fun _ => Or.inl rfl⟩ _ _ _ hindex
      have hne : index ≠ 0 := (hinv.waits hset).2.mpr rfl
      obtain ⟨worker, rfl⟩ := Nat.exists_eq_succ_of_ne_zero hne
      refine ⟨worker, (List.getElem?_eq_some_iff.mp hafter).1, fun cond task hwaiting => ?_⟩
      rw [hafter] at hwaiting
      cases hwaiting
    · refine ⟨0, by rw [hlength]; omega, fun cond task hwaiting => ?_⟩
      have hbefore := waiting_of_behind hwoken hwaiting
      obtain rfl : cond = .condJob := (hinv.waits hbefore).2.mp Nat.one_ne_zero
      exact hnobody 1 task (hwoken.waiting hwaiting)
  · exact fun heq => absurd (show i = -1 from heq) (by omega)
  · exact hinv.log.concat htaken

/-- `main` ends the pool when all jobs were taken, and every worker that waits
for one hears of it. -/
theorem PoolInv.behind_finished {jobs : List Int} {workers : Nat} {pool : Pool}
    (hinv : PoolInv jobs workers pool) {thread chosen : Nat}
    {threads : List (Thread PoolCond PoolSection)}
    (hreaches : pool.Reaches thread .finish) (hzero : pool.system.shared = 0)
    (hdeliver : deliver chosen (pool.system.threads.set thread .idle) (.broadcast .condJob) =
      some threads) :
    PoolInv jobs workers (pool.behind (-1) threads ⟨thread, .finish, .finished⟩) := by
  obtain ⟨hsection, hlt, -⟩ := hinv.reaches hreaches
  obtain ⟨rfl, hmain⟩ := section_finish hsection
  have hwoken := woken_of_deliver hdeliver
  obtain ⟨hjobs, htaken⟩ := hinv.taken_of_empty hmain hzero
  rw [List.append_nil] at hjobs
  refine ⟨hinv.fault, hinv.workersLength, ?_, ?_, ⟨rfl, ?_, ?_⟩, nofun, ?_, ⟨nofun, nofun, ?_⟩, ?_⟩
  · exact hwoken.length.trans (List.length_set.trans hinv.threadsLength)
  · refine posted_behind hlt hinv.posted hwoken fun other hne => section_of_workers ?_ hne
    rfl
  · show given (pool.system.log ++ [_]) = jobs
    rw [given_append, hjobs]
    exact List.append_nil jobs
  · show taken (pool.system.log ++ [_]) = jobs
    rw [taken_append, htaken, hjobs]
    exact List.append_nil jobs
  · intro count hjoining
    cases hjoining
    exact Nat.zero_le workers
  · intro _ worker cond task hwaiting
    have hbefore := waiting_of_behind hwoken hwaiting
    obtain rfl : cond = .condJob := (hinv.waits hbefore).2.mp (Nat.succ_ne_zero worker)
    exact not_waiting_of_broadcast hdeliver task (List.mem_of_getElem? hwaiting)
  · exact hinv.log.concat htaken

/-! ### Outside the mutex -/

/-- A worker that ends its computation goes back to the lock. -/
theorem PoolInv.compute {jobs : List Int} {workers : Nat} {pool : Pool}
    (hinv : PoolInv jobs workers pool) {worker : Nat} {i : Int} (printed : List (Nat × Int))
    (h : pool.workers[worker]? = some (.computing i)) :
    PoolInv jobs workers { pool with
      workers := pool.workers.set worker .looping
      printed := printed } where
  fault := hinv.fault
  workersLength := List.length_set.trans hinv.workersLength
  threadsLength := hinv.threadsLength
  posted := by
    intro thread state hstate
    have hposted := hinv.posted thread state hstate
    cases thread with
    | zero => exact hposted
    | succ other =>
      rcases eq_or_ne worker other with rfl | hne
      · -- behind its section a worker is idle, so nothing is posted for it
        have hnone : pool.section (worker + 1) = none := by
          simp only [Pool.section, h]
        rw [hnone] at hposted
        cases state with
        | idle => trivial
        | waiting cond task => cases hposted.1
        | woken task => cases hposted
      · have hsame : ({ pool with
            workers := pool.workers.set worker .looping
            printed := printed } : Pool).section (other + 1) = pool.section (other + 1) := by
          simp only [Pool.section, List.getElem?_set_ne hne]
        rw [hsame]
        exact hposted
  slot := hinv.slot
  stays := by
    intro rest hmain hleft
    rcases List.mem_or_eq_of_mem_set hleft with hmem | heq
    · exact hinv.stays rest hmain hmem
    · cases heq
  joined := hinv.joined
  awake := hinv.awake
  log := hinv.log

theorem PoolInv.join {jobs : List Int} {workers : Nat} {pool : Pool}
    (hinv : PoolInv jobs workers pool) {count : Nat} (hmain : pool.main = .joining count)
    (hleft : pool.workers[count]? = some .left) :
    PoolInv jobs workers { pool with main := .joining (count + 1) } where
  fault := hinv.fault
  workersLength := hinv.workersLength
  threadsLength := hinv.threadsLength
  posted := by
    intro thread state hstate
    have hposted := hinv.posted thread state hstate
    cases thread with
    | zero =>
      simp only [Pool.section, hmain] at hposted
      exact hposted
    | succ other => exact hposted
  slot := by
    have hslot := hinv.slot
    rw [hmain] at hslot
    exact hslot
  stays := nofun
  joined := by
    intro other hother
    cases hother
    rw [← hinv.workersLength]
    exact (List.getElem?_eq_some_iff.mp hleft).1
  awake := hinv.awake
  log := hinv.log

/-! ## Runs -/

/-- Every event keeps the invariant. -/
theorem PoolInv.step {jobs : List Int} {workers : Nat} (hpos : ∀ job ∈ jobs, 0 < job)
    (hworkers : 0 < workers) {pool next : Pool} {event : PoolEvent}
    (hinv : PoolInv jobs workers pool) (h : poolStep pool event = some next) :
    PoolInv jobs workers next := by
  obtain ⟨thread, cond, task, hwaiting, rfl⟩ | ⟨thread, task, cond, hreaches, hwait, rfl⟩ |
    ⟨thread, task, chosen, num, result, notify, threads, hreaches, hdone, hdeliver, rfl⟩ |
    ⟨worker, i, hcomputing, rfl⟩ | ⟨count, hmain, hleft, rfl⟩ := poolStep_cases h
  · exact hinv.wake hwaiting
  · exact hinv.wait hreaches hwait
  · obtain ⟨rfl, hend, rfl, rfl, rfl⟩ | ⟨rfl, hnum, hend, rfl, rfl, rfl⟩ |
      ⟨i, rfl, hzero, rfl, rfl, rfl⟩ | ⟨rfl, hzero, rfl, rfl, rfl⟩ := poolPass_done hdone
    · obtain ⟨hsection, hlt, -⟩ := hinv.reaches hreaches
      exact hinv.behind_left hsection hlt hend (woken_of_deliver hdeliver)
    · exact hinv.behind_took hreaches hnum hend hdeliver
    · exact hinv.behind_given hpos hworkers hreaches hzero hdeliver
    · exact hinv.behind_finished hreaches hzero hdeliver
  · exact hinv.compute _ hcomputing
  · exact hinv.join hmain hleft

theorem poolInv_start (jobs : List Int) (workers : Nat) :
    PoolInv jobs workers (poolStart jobs workers) where
  fault := rfl
  workersLength := List.length_replicate
  threadsLength := List.length_replicate
  posted := by
    intro thread state hstate
    rw [List.eq_of_mem_replicate (List.mem_of_getElem? hstate)]
    trivial
  slot := ⟨rfl, Or.inl ⟨rfl, rfl⟩⟩
  stays := by
    intro rest _ hleft
    cases List.eq_of_mem_replicate hleft
  joined := nofun
  awake := by
    refine ⟨fun _ cond task hwaiting => ?_, nofun, nofun⟩
    cases List.eq_of_mem_replicate (List.mem_of_getElem? hwaiting)
  log := EventMachine.justified_nil _

theorem poolInv_run {jobs : List Int} {workers : Nat} (hpos : ∀ job ∈ jobs, 0 < job)
    (hworkers : 0 < workers) (events : List PoolEvent) :
    PoolInv jobs workers (poolRun (poolStart jobs workers) events) :=
  EventMachine.run_induction poolStep (fun _ _ _ hinv h => hinv.step hpos hworkers h) events
    (poolInv_start jobs workers)

/-! ## Progress -/

/-- A thread that stands at a section and waits for nothing is not blocked. -/
theorem not_blocked_of_section {jobs : List Int} {workers : Nat} {pool : Pool}
    (hinv : PoolInv jobs workers pool) {thread : Nat} {task : PoolSection}
    (hsection : pool.section thread = some task) (hlt : thread < pool.system.threads.length)
    (hawake : ∀ cond task, pool.system.threads[thread]? ≠ some (.waiting cond task)) :
    ¬ pool.Blocked thread := by
  intro hblocked
  obtain ⟨chosen, after, hpass⟩ := exists_pass poolPass pool.system thread task
  obtain ⟨state, hstate⟩ : ∃ state, pool.system.threads[thread]? = some state :=
    ⟨_, List.getElem?_eq_getElem hlt⟩
  cases state with
  | idle =>
    have hnone := hblocked (.mutex (.call thread task chosen)) rfl
    simp [poolStep, Pool.permits, hsection, CondVar.step, hinv.fault, hstate, hpass] at hnone
  | waiting cond own => exact hawake cond own hstate
  | woken own =>
    have hown : pool.section thread = some own := hinv.posted thread _ hstate
    rw [hsection] at hown
    cases hown
    have hnone := hblocked (.mutex (.resume thread chosen)) rfl
    simp [poolStep, Pool.permits, CondVar.step, hinv.fault, hstate, hpass] at hnone

theorem not_blocked_of_computing {pool : Pool} {worker : Nat} {i : Int}
    (h : pool.workers[worker]? = some (.computing i)) : ¬ pool.Blocked (worker + 1) := by
  intro hblocked
  have hnone := hblocked (.compute worker) rfl
  simp only [poolStep, h] at hnone
  cases hnone

/-- A worker that is awake and did not leave its loop is not blocked. -/
theorem not_blocked_of_worker {jobs : List Int} {workers : Nat} {pool : Pool}
    (hinv : PoolInv jobs workers pool) {worker : Nat} {place : WorkerAt}
    (hplace : pool.workers[worker]? = some place) (hstays : place ≠ .left)
    (hawake : ∀ cond task, pool.system.threads[worker + 1]? ≠ some (.waiting cond task)) :
    ¬ pool.Blocked (worker + 1) := by
  cases place with
  | looping =>
    have hlt : worker + 1 < pool.system.threads.length := by
      rw [hinv.threadsLength, ← hinv.workersLength]
      exact Nat.succ_lt_succ (List.getElem?_eq_some_iff.mp hplace).1
    have hsection : pool.section (worker + 1) = some .take := by
      simp only [Pool.section, hplace]
    exact not_blocked_of_section hinv hsection hlt hawake
  | computing i => exact not_blocked_of_computing hplace
  | left => exact absurd rfl hstays

/-- While `main` hands out jobs, it can go on when the slot is empty, and a worker
can when it is not. -/
theorem exists_not_blocked_of_giving {jobs : List Int} {workers : Nat} {pool : Pool}
    (hinv : PoolInv jobs workers pool) {rest : List Int} (hmain : pool.main = .giving rest) :
    ∃ thread, ¬ pool.Blocked thread := by
  have hslot := hinv.slot
  rw [hmain] at hslot
  obtain ⟨-, ⟨hzero, -⟩ | ⟨hnum, -⟩⟩ := hslot
  · have hlt : 0 < pool.system.threads.length := by
      rw [hinv.threadsLength]
      omega
    obtain ⟨task, hsection⟩ : ∃ task, pool.section 0 = some task := by
      cases rest with
      | nil => exact ⟨.finish, by simp only [Pool.section, hmain]⟩
      | cons i rest => exact ⟨.give i, by simp only [Pool.section, hmain]⟩
    exact ⟨0, not_blocked_of_section hinv hsection hlt (hinv.awake.main hzero)⟩
  · obtain ⟨worker, hlt, hawake⟩ := hinv.awake.worker hnum
    rw [hinv.threadsLength, ← hinv.workersLength] at hlt
    obtain ⟨place, hplace⟩ : ∃ place, pool.workers[worker]? = some place :=
      ⟨_, List.getElem?_eq_getElem (Nat.lt_of_succ_lt_succ hlt)⟩
    refine ⟨worker + 1, not_blocked_of_worker hinv hplace ?_ hawake⟩
    rintro rfl
    exact hinv.stays rest hmain (List.mem_of_getElem? hplace)

/-- While `main` joins, a worker that has not left can go on, and `main` can when
all have. -/
theorem exists_not_blocked_of_joining {jobs : List Int} {workers : Nat} {pool : Pool}
    (hinv : PoolInv jobs workers pool) {count : Nat} (hmain : pool.main = .joining count)
    (hover : ¬ pool.Over) : ∃ thread, ¬ pool.Blocked thread := by
  have hslot := hinv.slot
  rw [hmain] at hslot
  by_cases hleft : ∀ place ∈ pool.workers, place = .left
  · have hcount : count < pool.workers.length := by
      have hle := hinv.joined count hmain
      rw [← hinv.workersLength] at hle
      refine lt_of_le_of_ne hle fun heq => hover ⟨?_, hleft⟩
      rw [hmain, heq]
    have hplace : pool.workers[count]? = some .left := by
      rw [List.getElem?_eq_getElem hcount, hleft _ (List.getElem_mem hcount)]
    refine ⟨0, fun hblocked => ?_⟩
    have hnone := hblocked .join rfl
    simp only [poolStep, hmain, hplace] at hnone
    cases hnone
  · push Not at hleft
    obtain ⟨place, hmem, hstays⟩ := hleft
    obtain ⟨worker, hplace⟩ := List.mem_iff_getElem?.mp hmem
    exact ⟨worker + 1, not_blocked_of_worker hinv hplace hstays
      (hinv.awake.workers hslot.1 worker)⟩

/-- The one-slot hand-off.  Whatever `main` and the workers do, and whoever is
woken: the jobs taken are the first ones of the list, in its order and each by
one section of one worker; a job, and the end, are written only when every job
before was taken; a worker leaves its loop only when all jobs were; once all
threads ended every job was taken; and until then not every thread is blocked. -/
theorem primer_pool {jobs : List Int} (hpos : ∀ job ∈ jobs, 0 < job) {workers : Nat}
    (hworkers : 0 < workers) (events : List PoolEvent) :
    (∀ before entry after,
      (poolRun (poolStart jobs workers) events).system.log = before ++ entry :: after →
      (∀ i, entry.result = .took i → jobs[(taken before).length]? = some i ∧
        ∃ worker, worker < workers ∧ entry.thread = worker + 1) ∧
      (entry.result = .given ∨ entry.result = .finished → taken before = given before) ∧
      (entry.result = .left → taken before = jobs)) ∧
    taken (poolRun (poolStart jobs workers) events).system.log <+:
      given (poolRun (poolStart jobs workers) events).system.log ∧
    given (poolRun (poolStart jobs workers) events).system.log <+: jobs ∧
    ((poolRun (poolStart jobs workers) events).Over →
      taken (poolRun (poolStart jobs workers) events).system.log = jobs) ∧
    (¬ (poolRun (poolStart jobs workers) events).Over →
      ∃ thread, ¬ (poolRun (poolStart jobs workers) events).Blocked thread) := by
  have hinv := poolInv_run hpos hworkers events
  generalize poolRun (poolStart jobs workers) events = pool at hinv ⊢
  refine ⟨?_, ?_, ?_, ?_, ?_⟩
  · intro before entry after hlog
    have hentered := hinv.log before entry after hlog
    unfold Entered at hentered
    cases hresult : entry.result with
    | took i =>
      rw [hresult] at hentered
      refine ⟨?_, nofun, nofun⟩
      rintro _ ⟨⟩
      exact hentered
    | left =>
      rw [hresult] at hentered
      exact ⟨nofun, nofun, fun _ => hentered⟩
    | given =>
      rw [hresult] at hentered
      exact ⟨nofun, fun _ => hentered, nofun⟩
    | finished =>
      rw [hresult] at hentered
      exact ⟨nofun, fun _ => hentered, nofun⟩
  · have hslot := hinv.slot
    cases hmain : pool.main with
    | giving rest =>
      rw [hmain] at hslot
      obtain ⟨-, ⟨-, htaken⟩ | ⟨-, htaken⟩⟩ := hslot
      · rw [htaken]
      · exact ⟨_, htaken⟩
    | joining count =>
      rw [hmain] at hslot
      rw [hslot.2.1, hslot.2.2]
  · have hslot := hinv.slot
    cases hmain : pool.main with
    | giving rest =>
      rw [hmain] at hslot
      exact ⟨rest, hslot.1⟩
    | joining count =>
      rw [hmain] at hslot
      rw [hslot.2.1]
  · intro hover
    have hslot := hinv.slot
    rw [hover.1] at hslot
    exact hslot.2.2
  · intro hover
    cases hmain : pool.main with
    | giving rest => exact exists_not_blocked_of_giving hinv hmain
    | joining count => exact exists_not_blocked_of_joining hinv hmain hover

/-- Two jobs for two workers: both wait before the first job is handed out, the
first one is woken, and it takes the second job too. -/
def twoJobs : List PoolEvent :=
  [.mutex (.call 1 .take 0), .mutex (.call 2 .take 0), .mutex (.call 0 (.give 7) 1),
    .mutex (.resume 1 0), .mutex (.call 0 (.give 9) 2), .compute 0, .mutex (.call 1 .take 0)]

theorem primer_pool_two :
    taken (poolRun (poolStart [7, 9] 2) twoJobs).system.log = [7, 9] ∧
      ∃ thread, ¬ (poolRun (poolStart [7, 9] 2) twoJobs).Blocked thread :=
  ⟨by decide +kernel, (@primer_pool [7, 9] (by decide) 2 (by decide) twoJobs).2.2.2.2
    fun hover => absurd hover.1 (by decide +kernel)⟩

/-! ## What is printed -/

/-- The jobs of the workers and of the lines printed are jobs of the list. -/
def FromJobs (jobs : List Int) (pool : Pool) : Prop :=
  (∀ i, WorkerAt.computing i ∈ pool.workers → i ∈ jobs) ∧
    ∀ line ∈ pool.printed, line.2 ∈ jobs ∧ mark line.2 = true

theorem fromJobs_step {jobs : List Int} {workers : Nat} {pool next : Pool} {event : PoolEvent}
    (hinv : PoolInv jobs workers pool) (hfrom : FromJobs jobs pool)
    (h : poolStep pool event = some next) : FromJobs jobs next := by
  obtain ⟨thread, cond, task, -, rfl⟩ | ⟨thread, task, cond, -, -, rfl⟩ |
    ⟨thread, task, chosen, num, result, notify, threads, -, hdone, -, rfl⟩ |
    ⟨worker, i, hcomputing, rfl⟩ | ⟨count, -, -, rfl⟩ := poolStep_cases h
  · exact hfrom
  · exact hfrom
  · obtain ⟨rfl, -, rfl, rfl, rfl⟩ | ⟨rfl, hnum, hend, rfl, rfl, rfl⟩ |
      ⟨i, rfl, -, rfl, rfl, rfl⟩ | ⟨rfl, -, rfl, rfl, rfl⟩ := poolPass_done hdone
    · refine ⟨fun i hi => ?_, hfrom.2⟩
      rcases List.mem_or_eq_of_mem_set hi with hmem | heq
      · exact hfrom.1 i hmem
      · cases heq
    · refine ⟨fun i hi => ?_, hfrom.2⟩
      rcases List.mem_or_eq_of_mem_set hi with hmem | heq
      · exact hfrom.1 i hmem
      · cases heq
        have hslot := hinv.slot
        cases hmain : pool.main with
        | joining count =>
          rw [hmain] at hslot
          exact absurd hslot.1 hend
        | giving rest =>
          rw [hmain] at hslot
          obtain ⟨hjobs, ⟨hzero, -⟩ | ⟨-, htaken⟩⟩ := hslot
          · exact absurd hzero hnum
          · rw [← hjobs, ← htaken]
            simp
    · unfold Pool.behind Pool.goOn
      cases hmain : pool.main with
      | giving rest => exact hfrom
      | joining count => exact hfrom
    · exact hfrom
  · refine ⟨fun other hother => ?_, fun line hline => ?_⟩
    · rcases List.mem_or_eq_of_mem_set hother with hmem | heq
      · exact hfrom.1 other hmem
      · cases heq
    · simp only at hline
      split at hline
      · rename_i hmark
        rcases List.mem_append.mp hline with hold | hnew
        · exact hfrom.2 line hold
        · rw [List.mem_singleton.mp hnew]
          exact ⟨hfrom.1 i (List.mem_of_getElem? hcomputing), hmark⟩
      · exact hfrom.2 line hline
  · exact hfrom

end LearnApue.Para.PrimerPool
