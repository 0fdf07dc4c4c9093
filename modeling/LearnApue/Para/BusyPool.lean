import LearnApue.Foundation.Refinement
import LearnApue.Para.TrialDivision

set_option autoImplicit false

/-!
# The pool that spins

`primer1_pool_busy.c`: the same slot as in `primer1_pool_cond.c`, without condition
variables.  Who finds the slot in the wrong state unlocks the mutex, yields and locks it
again.  Without those rounds it is the pool that waits, in which nobody waits.
-/

namespace LearnApue.Para.PrimerPool

open LearnApue.Foundation LearnApue.Foundation.CondVar LearnApue.Foundation.EventMachine
open LearnApue.Para.TrialDivision

/-! ## The pool -/

/-- `num`, where each thread stands, what the passes that were not idle did, and the
lines printed. -/
structure BusyPool where
  num : Int
  main : MainAt
  workers : List WorkerAt
  log : List (Finished PoolSection PoolResult)
  printed : List (Nat × Int)

/-- The pool when `main` has started its workers. -/
def busyStart (jobs : List Int) (workers : Nat) : BusyPool :=
  ⟨0, .giving jobs, List.replicate workers .looping, [], []⟩

/-- What can happen: a thread locks the mutex, looks at `num` and unlocks it again; a
worker ends its computation; or `main` joins its next worker. -/
inductive BusyEvent where
  | pass (thread : Nat)
  | compute (worker : Nat)
  | join
deriving DecidableEq, Repr

namespace BusyPool

/-- A pass that did something. -/
def ends (pool : BusyPool) (num : Int) (entry : Finished PoolSection PoolResult) : BusyPool :=
  { pool with num := num, log := pool.log ++ [entry] }

/-- A pass of `main` between a lock and an unlock of `mut_num`. -/
def passMain (pool : BusyPool) : Option BusyPool :=
  match pool.main with
  | .giving (i :: rest) =>
      some (if pool.num ≠ 0 then pool
        else { pool.ends i ⟨0, .give i, .given⟩ with main := .giving rest })
  | .giving [] =>
      some (if pool.num ≠ 0 then pool
        else { pool.ends (-1) ⟨0, .finish, .finished⟩ with main := .joining 0 })
  | .joining _ => none

/-- A pass of a worker between a lock and an unlock of `mut_num`. -/
def passWorker (pool : BusyPool) (worker : Nat) : Option BusyPool :=
  match pool.workers[worker]? with
  | some .looping =>
      some (if pool.num = 0 then pool
        else if pool.num = -1 then
          { pool.ends pool.num ⟨worker + 1, .take, .left⟩ with
            workers := pool.workers.set worker .left }
        else
          { pool.ends 0 ⟨worker + 1, .take, .took pool.num⟩ with
            workers := pool.workers.set worker (.computing pool.num) })
  | _ => none

end BusyPool

/-- One event, when it is possible; a computation without a result is undefined. -/
def busyStep (pool : BusyPool) : BusyEvent → Option BusyPool
  | .pass 0 => pool.passMain
  | .pass (worker + 1) => pool.passWorker worker
  | .compute worker =>
      match pool.workers[worker]? with
      | some (.computing i) =>
          (busyTrial i).map fun trial =>
            { pool with
              workers := pool.workers.set worker .looping
              printed := if trial.mark then pool.printed ++ [(worker, i)] else pool.printed }
      | _ => none
  | .join =>
      match pool.main with
      | .joining count =>
          if pool.workers[count]? = some .left then some { pool with main := .joining (count + 1) }
          else none
      | .giving _ => none

/-- The pool with condition variables in which nobody waits. -/
def BusyPool.awake (pool : BusyPool) : Pool :=
  ⟨⟨pool.num, List.replicate (pool.workers.length + 1) .idle, pool.log, false⟩, pool.main,
    pool.workers, pool.printed⟩

theorem busyStart_awake (jobs : List Int) (workers : Nat) :
    (busyStart jobs workers).awake = poolStart jobs workers := by
  simp [busyStart, BusyPool.awake, poolStart, CondVar.start]

/-- What an event does in that pool: a round that finds the slot in the wrong state does
nothing. -/
def BusyPool.does (pool : BusyPool) : BusyEvent → List PoolEvent
  | .pass 0 =>
      match pool.main with
      | .giving (i :: _) => if pool.num ≠ 0 then [] else [.mutex (.call 0 (.give i) 0)]
      | .giving [] => if pool.num ≠ 0 then [] else [.mutex (.call 0 .finish 0)]
      | .joining _ => []
  | .pass (worker + 1) => if pool.num = 0 then [] else [.mutex (.call (worker + 1) .take 0)]
  | .compute worker => [.compute worker]
  | .join => [.join]

/-- What a step can do: an idle round, the two passes of `main`, the two of a worker, a
computation that ends and a join. -/
inductive Does (pool : BusyPool) : List PoolEvent → BusyPool → Prop
  | idle : Does pool [] pool
  | give {i : Int} {rest : List Int} (hmain : pool.main = .giving (i :: rest))
      (hempty : pool.num = 0) :
      Does pool [.mutex (.call 0 (.give i) 0)]
        { pool.ends i ⟨0, .give i, .given⟩ with main := .giving rest }
  | finish (hmain : pool.main = .giving []) (hempty : pool.num = 0) :
      Does pool [.mutex (.call 0 .finish 0)]
        { pool.ends (-1) ⟨0, .finish, .finished⟩ with main := .joining 0 }
  | leave {worker : Nat} (hlooping : pool.workers[worker]? = some .looping)
      (hend : pool.num = -1) :
      Does pool [.mutex (.call (worker + 1) .take 0)]
        { pool.ends pool.num ⟨worker + 1, .take, .left⟩ with
          workers := pool.workers.set worker .left }
  | take {worker : Nat} (hlooping : pool.workers[worker]? = some .looping)
      (hfull : pool.num ≠ 0) (hjob : pool.num ≠ -1) :
      Does pool [.mutex (.call (worker + 1) .take 0)]
        { pool.ends 0 ⟨worker + 1, .take, .took pool.num⟩ with
          workers := pool.workers.set worker (.computing pool.num) }
  | compute {worker : Nat} {i : Int} {trial : Trial}
      (hcomputing : pool.workers[worker]? = some (.computing i))
      (htrial : busyTrial i = some trial) :
      Does pool [.compute worker]
        { pool with
          workers := pool.workers.set worker .looping
          printed := if trial.mark then pool.printed ++ [(worker, i)] else pool.printed }
  | join {count : Nat} (hmain : pool.main = .joining count)
      (hleft : pool.workers[count]? = some .left) :
      Does pool [.join] { pool with main := .joining (count + 1) }

theorem does_of_passMain {pool next : BusyPool} (h : pool.passMain = some next) :
    Does pool (pool.does (.pass 0)) next := by
  unfold BusyPool.passMain at h
  cases hmain : pool.main with
  | giving rest =>
    cases rest with
    | nil =>
      simp only [hmain, Option.some.injEq] at h
      subst h
      simp only [BusyPool.does, hmain]
      split
      · exact .idle
      · rename_i hempty
        exact .finish hmain (not_not.mp hempty)
    | cons i rest =>
      simp only [hmain, Option.some.injEq] at h
      subst h
      simp only [BusyPool.does, hmain]
      split
      · exact .idle
      · rename_i hempty
        exact .give hmain (not_not.mp hempty)
  | joining count =>
    rw [hmain] at h
    cases h

theorem does_of_passWorker {pool next : BusyPool} {worker : Nat}
    (h : pool.passWorker worker = some next) :
    Does pool (pool.does (.pass (worker + 1))) next := by
  unfold BusyPool.passWorker at h
  split at h
  · rename_i hlooping
    rw [Option.some.injEq] at h
    subst h
    simp only [BusyPool.does]
    split
    · exact .idle
    · rename_i hfull
      split
      · rename_i hend
        exact .leave hlooping hend
      · rename_i hjob
        exact .take hlooping hfull hjob
  · cases h

theorem does_of_step {pool next : BusyPool} {event : BusyEvent}
    (h : busyStep pool event = some next) : Does pool (pool.does event) next := by
  cases event with
  | pass thread =>
    cases thread with
    | zero => exact does_of_passMain h
    | succ worker => exact does_of_passWorker h
  | compute worker =>
    simp only [busyStep] at h
    split at h
    · rename_i i hcomputing
      obtain ⟨trial, htrial, rfl⟩ := Option.map_eq_some_iff.mp h
      exact .compute hcomputing htrial
    · cases h
  | join =>
    simp only [busyStep] at h
    split at h
    · rename_i count hmain
      split at h
      · rename_i hleft
        cases h
        exact .join hmain hleft
      · cases h
    · cases h

/-! ## A pass where nobody waits -/

theorem set_idle (n thread : Nat) :
    (List.replicate n (.idle : Thread PoolCond PoolSection)).set thread .idle =
      List.replicate n .idle := by
  apply List.ext_getElem
  · simp
  · intro i hleft hright
    simp only [List.getElem_set, List.getElem_replicate, ite_self]

/-- Nobody is woken where nobody waits. -/
theorem deliver_idle (n : Nat) (notify : Notify PoolCond) :
    deliver 0 (List.replicate n (.idle : Thread PoolCond PoolSection)) notify =
      some (List.replicate n .idle) := by
  have hwaits : ∀ cond, (List.replicate n (.idle : Thread PoolCond PoolSection)).any
      (Thread.waitsOn cond) = false := by
    intro cond
    rw [List.any_eq_false]
    intro thread hthread
    rw [List.eq_of_mem_replicate hthread]
    exact Bool.false_ne_true
  cases notify with
  | silent => rfl
  | broadcast cond => simp [deliver, Thread.wakeOn]
  | signal cond =>
    have hchosen : ((List.replicate n (.idle : Thread PoolCond PoolSection))[0]?.map
        (Thread.waitsOn cond)).getD false = false := by
      cases n with
      | zero => rfl
      | succ n => rfl
    simp only [deliver, hchosen, hwaits, Bool.false_eq_true, if_false]

/-- A pass that does something is a section of the pool that waits. -/
theorem poolStep_awake {pool : BusyPool} {thread : Nat} {task : PoolSection} {num : Int}
    {result : PoolResult} {notify : Notify PoolCond}
    (hsection : pool.awake.section thread = some task) (hlt : thread < pool.workers.length + 1)
    (hpass : poolPass task pool.num = .done num result notify) :
    poolStep pool.awake (.mutex (.call thread task 0)) =
      some (Pool.goOn { pool.awake with
        system := ⟨num, List.replicate (pool.workers.length + 1) .idle,
          pool.log ++ [⟨thread, task, result⟩], false⟩ } ⟨thread, task, result⟩) := by
  have hpermits : pool.awake.permits (.call thread task 0) = true := by
    simp [Pool.permits, hsection]
  have hidle : pool.awake.system.threads[thread]? = some .idle := by
    show (List.replicate _ _)[thread]? = _
    rw [List.getElem?_replicate, if_pos hlt]
  have hstep : CondVar.step poolPass pool.awake.system (.call thread task 0) =
      some ⟨num, List.replicate (pool.workers.length + 1) .idle,
        pool.log ++ [⟨thread, task, result⟩], false⟩ := by
    unfold CondVar.step
    rw [if_neg (show ¬ pool.awake.system.fault = true from Bool.false_ne_true)]
    simp only [hidle]
    unfold CondVar.pass
    rw [show pool.awake.system.shared = pool.num from rfl, hpass]
    simp only [show pool.awake.system.threads =
      List.replicate (pool.workers.length + 1) .idle from rfl, set_idle, deliver_idle,
      Option.map_some]
    rfl
  simp only [poolStep, hpermits, if_true, hstep, Option.map_some]
  rw [show pool.awake.system.log = pool.log from rfl, List.drop_left]
  rfl

/-! ## What is printed -/

/-- Of every job that is marked, as many were taken as are being computed and were
printed. -/
def Ledger (pool : Pool) : Prop :=
  ∀ i, mark i = true →
    (taken pool.system.log).count i =
      pool.workers.count (.computing i) + (pool.printed.map Prod.snd).count i

theorem count_set_place {workers : List WorkerAt} {worker : Nat} {old new : WorkerAt}
    (h : workers[worker]? = some old) (place : WorkerAt) :
    (workers.set worker new).count place + (if old = place then 1 else 0) =
      workers.count place + if new = place then 1 else 0 := by
  obtain ⟨hlt, hold⟩ := List.getElem?_eq_some_iff.mp h
  rw [List.count_set hlt, hold]
  have hpos : old = place → 0 < workers.count place := by
    rintro rfl
    exact List.count_pos_iff.mpr (hold ▸ List.getElem_mem hlt)
  simp only [beq_iff_eq]
  split
  · rename_i hsame
    have hcount := hpos hsame
    omega
  · omega

/-- A worker that takes a job computes it, and prints it when it is marked. -/
theorem ledger_step {jobs : List Int} {workers : Nat} {pool next : Pool} {event : PoolEvent}
    (hinv : PoolInv jobs workers pool) (hledger : Ledger pool)
    (h : poolStep pool event = some next) : Ledger next := by
  obtain ⟨thread, cond, task, -, rfl⟩ | ⟨thread, task, cond, -, -, rfl⟩ |
    ⟨thread, task, chosen, num, result, notify, threads, hreaches, hdone, -, rfl⟩ |
    ⟨worker, i, hcomputing, rfl⟩ | ⟨count, -, -, rfl⟩ := poolStep_cases h
  · exact hledger
  · exact hledger
  · obtain ⟨hsection, -, -⟩ := hinv.reaches hreaches
    obtain ⟨rfl, -, rfl, rfl, rfl⟩ | ⟨rfl, hnum, hend, rfl, rfl, rfl⟩ |
      ⟨i, rfl, -, rfl, rfl, rfl⟩ | ⟨rfl, -, rfl, rfl, rfl⟩ := poolPass_done hdone
    · obtain ⟨worker, rfl, hlooping⟩ := section_take hsection
      intro i hmark
      have hcount := @count_set_place _ _ _ .left hlooping (.computing i)
      simp only [reduceCtorEq, if_false, Nat.add_zero] at hcount
      have hold := hledger i hmark
      simpa [Pool.behind, Pool.goOn, taken, hcount] using hold
    · obtain ⟨worker, rfl, hlooping⟩ := section_take hsection
      intro i hmark
      have hcount := @count_set_place _ _ _ (.computing pool.system.shared) hlooping (.computing i)
      simp only [reduceCtorEq, if_false, Nat.add_zero, WorkerAt.computing.injEq] at hcount
      have hold := hledger i hmark
      have htaken : taken (pool.system.log ++
          [(⟨worker + 1, .take, .took pool.system.shared⟩ : Finished PoolSection PoolResult)]) =
          taken pool.system.log ++ [pool.system.shared] := taken_append _ _
      simp only [Pool.behind, Pool.goOn, htaken, List.count_append, Nat.add_sub_cancel, hcount,
        List.count_singleton, beq_iff_eq]
      omega
    · intro i' hmark
      have hold := hledger i' hmark
      unfold Pool.behind Pool.goOn
      cases hmain : pool.main with
      | giving rest => simpa [taken] using hold
      | joining count => simpa [taken] using hold
    · intro i hmark
      simpa [Pool.behind, Pool.goOn, taken] using hledger i hmark
  · intro i' hmark
    have hcount := @count_set_place _ _ _ .looping hcomputing (.computing i')
    simp only [reduceCtorEq, if_false, Nat.add_zero, WorkerAt.computing.injEq] at hcount
    have hold := hledger i' hmark
    by_cases hsame : i = i'
    · subst hsame
      simp only [if_true] at hcount
      simp only [hmark, if_true, List.map_append, List.count_append, List.map_cons, List.map_nil,
        List.count_singleton_self]
      omega
    · simp only [if_neg hsame, Nat.add_zero] at hcount
      simp only [hcount]
      split
      · simp only [List.map_append, List.count_append, List.map_cons, List.map_nil,
          List.count_singleton, beq_iff_eq, if_neg hsame, Nat.add_zero]
        exact hold
      · exact hold
  · exact hledger

/-- When a pool is over it has printed the marked jobs, each as often as it is one. -/
theorem printed_of_over {jobs : List Int} {workers : Nat} {pool : Pool}
    (hinv : PoolInv jobs workers pool) (hledger : Ledger pool) (hfrom : FromJobs jobs pool)
    (hover : pool.Over) : (pool.printed.map Prod.snd).Perm (jobs.filter mark) := by
  have htaken : taken pool.system.log = jobs := by
    have hslot := hinv.slot
    rw [hover.1] at hslot
    exact hslot.2.2
  rw [List.perm_iff_count]
  intro i
  by_cases hmark : mark i = true
  · have hall := hledger i hmark
    have hnone : pool.workers.count (.computing i) = 0 := by
      rw [List.count_eq_zero]
      intro hmem
      cases hover.2 _ hmem
    rw [htaken, hnone, Nat.zero_add] at hall
    rw [List.count_filter hmark]
    exact hall.symm
  · have hout : ∀ values : List Int, (∀ value ∈ values, mark value = true) → values.count i = 0 := by
      intro values hvalues
      rw [List.count_eq_zero]
      exact fun hmem => hmark (hvalues i hmem)
    rw [hout, hout]
    · exact fun value hvalue => (List.mem_filter.mp hvalue).2
    · intro value hvalue
      obtain ⟨line, hline, rfl⟩ := List.mem_map.mp hvalue
      exact (hfrom.2 line hline).2

/-! ## The refinement -/

/-- The jobs on which the loop of a worker does what that of the other program does. -/
def Testable (jobs : List Int) : Prop := ∀ job ∈ jobs, 2 ≤ job ∧ job ≤ intMax ∧ job ≠ 4

instance (jobs : List Int) : Decidable (Testable jobs) :=
  inferInstanceAs (Decidable (∀ job ∈ jobs, _))

/-- What holds of the pool that spins holds of the pool that waits. -/
structure BusyOk (jobs : List Int) (workers : Nat) (pool : BusyPool) : Prop where
  inv : PoolInv jobs workers pool.awake
  fromJobs : FromJobs jobs pool.awake
  ledger : Ledger pool.awake

theorem BusyOk.step {jobs : List Int} {workers : Nat} (hjobs : Testable jobs)
    (hworkers : 0 < workers) {pool next : BusyPool} {event : PoolEvent}
    (hok : BusyOk jobs workers pool) (h : poolStep pool.awake event = some next.awake) :
    BusyOk jobs workers next := by
  have hpos : ∀ job ∈ jobs, 0 < job := fun job hjob => by
    have htwo := (hjobs job hjob).1
    omega
  exact ⟨hok.inv.step hpos hworkers h, fromJobs_step hok.inv hok.fromJobs h,
    ledger_step hok.inv hok.ledger h⟩

theorem busyOk_start (jobs : List Int) (workers : Nat) :
    BusyOk jobs workers (busyStart jobs workers) := by
  refine ⟨?_, ?_, ?_⟩
  · rw [busyStart_awake]
    exact poolInv_start jobs workers
  · rw [busyStart_awake]
    refine ⟨fun i hi => ?_, fun line hline => absurd hline List.not_mem_nil⟩
    cases List.eq_of_mem_replicate hi
  · rw [busyStart_awake]
    intro i _
    simp [poolStart, taken, CondVar.start, List.count_replicate]

/-- The two loops leave the same mark on the jobs. -/
theorem busyTrial_mark {i : Int} (htwo : 2 ≤ i) (hmax : i ≤ intMax) (hfour : i ≠ 4) :
    ∃ trial, busyTrial i = some trial ∧ trial.mark = mark i := by
  have hint : InInt i := ⟨by unfold intMin; omega, hmax⟩
  obtain ⟨cond, busy, hcond, hbusy, -, -, hagree⟩ := (trialsAgree_iff hint htwo).mpr hfour
  obtain ⟨cond', hcond', -, hmark⟩ := condTrial_spec hint htwo
  rw [hcond, Option.some.injEq] at hcond'
  subst hcond'
  exact ⟨busy, hbusy, hagree.trans hmark⟩

/-- A round of a thread that finds the slot in the wrong state changes nothing; every
other event is one of the pool that waits. -/
theorem busyStep_cases {jobs : List Int} {workers : Nat} (hjobs : Testable jobs)
    {pool next : BusyPool} {event : BusyEvent} (hok : BusyOk jobs workers pool)
    (h : busyStep pool event = some next) :
    (pool.does event = [] ∧ next = pool) ∨
      ∃ done, pool.does event = [done] ∧ poolStep pool.awake done = some next.awake := by
  have hsection : ∀ {worker : Nat}, pool.workers[worker]? = some .looping →
      pool.awake.section (worker + 1) = some .take ∧ worker + 1 < pool.workers.length + 1 := by
    intro worker hlooping
    refine ⟨by simp [Pool.section, BusyPool.awake, hlooping], ?_⟩
    exact Nat.succ_lt_succ (List.getElem?_eq_some_iff.mp hlooping).1
  generalize hdone : pool.does event = done
  cases hdone ▸ does_of_step h with
  | idle => exact Or.inl ⟨rfl, rfl⟩
  | @give i rest hmain hempty =>
    have hgive : pool.awake.section 0 = some (.give i) := by
      simp [Pool.section, BusyPool.awake, hmain]
    refine Or.inr ⟨_, rfl, ?_⟩
    rw [poolStep_awake hgive (by omega) (if_neg (not_not.mpr hempty))]
    simp [Pool.goOn, BusyPool.awake, BusyPool.ends, hmain]
  | finish hmain hempty =>
    have hfinish : pool.awake.section 0 = some .finish := by
      simp [Pool.section, BusyPool.awake, hmain]
    refine Or.inr ⟨_, rfl, ?_⟩
    rw [poolStep_awake hfinish (by omega) (if_neg (not_not.mpr hempty))]
    simp [Pool.goOn, BusyPool.awake, BusyPool.ends]
  | @leave worker hlooping hend =>
    obtain ⟨htake, hlt⟩ := hsection hlooping
    have hpass : poolPass .take pool.num = .done pool.num .left .silent := by
      simp only [poolPass, if_neg (show ¬ pool.num = 0 by omega), if_pos hend]
    refine Or.inr ⟨_, rfl, ?_⟩
    rw [poolStep_awake htake hlt hpass]
    simp [Pool.goOn, BusyPool.awake, BusyPool.ends]
  | @take worker hlooping hfull hjob =>
    obtain ⟨htake, hlt⟩ := hsection hlooping
    have hpass : poolPass .take pool.num = .done 0 (.took pool.num) (.signal .condEmpty) := by
      simp only [poolPass, if_neg hfull, if_neg hjob]
    refine Or.inr ⟨_, rfl, ?_⟩
    rw [poolStep_awake htake hlt hpass]
    simp [Pool.goOn, BusyPool.awake, BusyPool.ends]
  | @compute worker i trial hcomputing htrial =>
    obtain ⟨htwo, hmax, hfour⟩ := hjobs i (hok.fromJobs.1 i (List.mem_of_getElem? hcomputing))
    obtain ⟨trial', htrial', hmark⟩ := busyTrial_mark htwo hmax hfour
    rw [htrial, Option.some.injEq] at htrial'
    subst htrial'
    refine Or.inr ⟨_, rfl, ?_⟩
    simp [poolStep, BusyPool.awake, hcomputing, hmark]
  | @join count hmain hleft =>
    refine Or.inr ⟨_, rfl, ?_⟩
    simp [poolStep, BusyPool.awake, hmain, hleft]

/-- The pool that spins refines the pool that waits. -/
theorem busy_refines {jobs : List Int} (hjobs : Testable jobs) {workers : Nat}
    (hworkers : 0 < workers) :
    Refines busyStep poolStep (BusyOk jobs workers) (fun _ _ => True) BusyPool.awake
      BusyPool.does := by
  intro pool event next hok _ h
  rcases busyStep_cases hjobs hok h with ⟨hdoes, rfl⟩ | ⟨done, hdoes, hstep⟩
  · exact ⟨hok, by rw [hdoes]; rfl⟩
  · exact ⟨hok.step hjobs hworkers hstep, by rw [hdoes, follow_singleton]; exact hstep⟩

/-! ## Progress -/

/-- The steps that are left to a worker, besides those that its next jobs bring. -/
def WorkerAt.stepsLeft : WorkerAt → Nat
  | .looping => 1
  | .computing _ => 2
  | .left => 0

/-- The steps that are left to `main`, with those of the jobs it has not handed out. -/
def MainAt.stepsLeft (workers : Nat) : MainAt → Nat
  | .giving rest => 3 * rest.length + 1 + workers
  | .joining count => workers - count

/-- The steps, other than idle rounds, that are left to a pool. -/
def BusyPool.remaining (pool : BusyPool) : Nat :=
  pool.main.stepsLeft pool.workers.length + (if 0 < pool.num then 2 else 0) +
    (pool.workers.map WorkerAt.stepsLeft).sum

theorem sum_left_set {workers : List WorkerAt} {worker : Nat} {old : WorkerAt}
    (h : workers[worker]? = some old) (new : WorkerAt) :
    ((workers.set worker new).map WorkerAt.stepsLeft).sum + old.stepsLeft =
      (workers.map WorkerAt.stepsLeft).sum + new.stepsLeft := by
  induction workers generalizing worker with
  | nil => cases h
  | cons place rest ih =>
    cases worker with
    | zero =>
      cases h
      simp only [List.set_cons_zero, List.map_cons, List.sum_cons]
      omega
    | succ worker =>
      have htail := ih h
      simp only [List.set_cons_succ, List.map_cons, List.sum_cons]
      omega

/-- What is in the slot, where it is neither empty nor over, is a job. -/
theorem BusyOk.num_pos {jobs : List Int} {workers : Nat} {pool : BusyPool}
    (hok : BusyOk jobs workers pool) (hfull : pool.num ≠ 0) (hjob : pool.num ≠ -1) :
    0 < pool.num := by
  have hslot := hok.inv.slot
  change Slot jobs pool.num pool.log pool.main at hslot
  cases hmain : pool.main with
  | joining count =>
    rw [hmain] at hslot
    exact absurd hslot.1 hjob
  | giving rest =>
    rw [hmain] at hslot
    rcases hslot.2 with ⟨hzero, -⟩ | ⟨hpos, -⟩
    · exact absurd hzero hfull
    · exact hpos

/-- The job that `main` hands out next is positive. -/
theorem BusyOk.next_pos {jobs : List Int} {workers : Nat} {pool : BusyPool} {i : Int}
    {rest : List Int} (hok : BusyOk jobs workers pool) (hjobs : Testable jobs)
    (hmain : pool.main = .giving (i :: rest)) : 0 < i := by
  have hslot := hok.inv.slot
  change Slot jobs pool.num pool.log pool.main at hslot
  rw [hmain] at hslot
  have hmem : i ∈ jobs := by
    rw [← hslot.1]
    simp
  have htwo := (hjobs i hmem).1
  omega

/-- Every step that does something is one of those that are left. -/
theorem remaining_step {jobs : List Int} {workers : Nat} (hjobs : Testable jobs)
    {pool next : BusyPool} {event : BusyEvent} (hok : BusyOk jobs workers pool)
    (h : busyStep pool event = some next) :
    next.remaining + (pool.does event).length = pool.remaining := by
  generalize hdone : pool.does event = done
  cases hdone ▸ does_of_step h with
  | idle => rfl
  | give hmain hempty =>
    have hpos := hok.next_pos hjobs hmain
    simp only [BusyPool.remaining, BusyPool.ends, MainAt.stepsLeft, hmain, hempty, hpos,
      List.length_cons, List.length_nil, lt_irrefl, if_true, if_false]
    omega
  | finish hmain hempty =>
    have hover : ¬ (0 : Int) < -1 := by omega
    simp only [BusyPool.remaining, BusyPool.ends, MainAt.stepsLeft, hmain, hempty, hover,
      List.length_cons, List.length_nil, lt_irrefl, if_false]
    omega
  | leave hlooping hend =>
    have hsum := sum_left_set hlooping .left
    have hover : ¬ (0 : Int) < -1 := by omega
    simp only [WorkerAt.stepsLeft] at hsum
    simp only [BusyPool.remaining, BusyPool.ends, List.length_set, hend, if_neg hover,
      List.length_singleton]
    omega
  | take hlooping hfull hjob =>
    have hpos := hok.num_pos hfull hjob
    have hsum := sum_left_set hlooping (.computing pool.num)
    simp only [WorkerAt.stepsLeft] at hsum
    simp only [BusyPool.remaining, BusyPool.ends, List.length_set, hpos, if_true, lt_irrefl,
      if_false, List.length_singleton]
    omega
  | compute hcomputing htrial =>
    have hsum := sum_left_set hcomputing .looping
    simp only [WorkerAt.stepsLeft] at hsum
    simp only [BusyPool.remaining, List.length_set, List.length_singleton]
    omega
  | join hmain hleft =>
    have hlt := (List.getElem?_eq_some_iff.mp hleft).1
    simp only [BusyPool.remaining, MainAt.stepsLeft, hmain, List.length_singleton]
    omega

/-- Until the pool is over some thread can do something. -/
theorem exists_does {jobs : List Int} {workers : Nat} (hjobs : Testable jobs)
    (hworkers : 0 < workers) {pool : BusyPool} (hok : BusyOk jobs workers pool)
    (hover : ¬ pool.awake.Over) :
    ∃ event, (busyStep pool event).isSome = true ∧ pool.does event ≠ [] := by
  have hslot := hok.inv.slot
  change Slot jobs pool.num pool.log pool.main at hslot
  have hlength : pool.workers.length = workers := hok.inv.workersLength
  have hworker : ∀ {worker : Nat} {place : WorkerAt}, pool.workers[worker]? = some place →
      place ≠ .left → pool.num ≠ 0 →
      ∃ event, (busyStep pool event).isSome = true ∧ pool.does event ≠ [] := by
    intro worker place hplace hstays hfull
    cases place with
    | looping =>
      refine ⟨.pass (worker + 1), ?_, ?_⟩
      · simp [busyStep, BusyPool.passWorker, hplace]
      · simp [BusyPool.does, hfull]
    | computing i =>
      obtain ⟨htwo, hmax, hfour⟩ := hjobs i (hok.fromJobs.1 i (List.mem_of_getElem? hplace))
      obtain ⟨trial, htrial, -⟩ := busyTrial_mark htwo hmax hfour
      refine ⟨.compute worker, ?_, List.cons_ne_nil _ _⟩
      simp [busyStep, hplace, htrial]
    | left => exact absurd rfl hstays
  cases hmain : pool.main with
  | giving rest =>
    rw [hmain] at hslot
    rcases hslot.2 with ⟨hzero, -⟩ | ⟨hpos, -⟩
    · refine ⟨.pass 0, ?_, ?_⟩
      · cases rest <;> simp [busyStep, BusyPool.passMain, hmain]
      · cases rest <;> simp [BusyPool.does, hmain, hzero]
    · obtain ⟨place, hplace⟩ : ∃ place, pool.workers[0]? = some place :=
        ⟨_, List.getElem?_eq_getElem (by omega)⟩
      refine hworker hplace ?_ (by omega)
      rintro rfl
      exact hok.inv.stays rest hmain (List.mem_of_getElem? hplace)
  | joining count =>
    rw [hmain] at hslot
    by_cases hleft : ∀ place ∈ pool.workers, place = .left
    · have hcount : count < pool.workers.length := by
        have hle := hok.inv.joined count hmain
        rw [← hlength] at hle
        refine lt_of_le_of_ne hle fun heq => hover ⟨?_, hleft⟩
        show pool.main = _
        rw [hmain, heq]
        rfl
      have hplace : pool.workers[count]? = some .left := by
        rw [List.getElem?_eq_getElem hcount, hleft _ (List.getElem_mem hcount)]
      refine ⟨.join, ?_, List.cons_ne_nil _ _⟩
      simp [busyStep, hmain, hplace]
    · push Not at hleft
      obtain ⟨place, hmem, hstays⟩ := hleft
      obtain ⟨worker, hplace⟩ := List.mem_iff_getElem?.mp hmem
      refine hworker hplace hstays ?_
      rw [hslot.1]
      decide

/-- The pool after a sequence of events. -/
def busyRun (jobs : List Int) (workers : Nat) (events : List BusyEvent) : BusyPool :=
  run busyStep (busyStart jobs workers) events

/-- What the events of a run do, without the idle rounds. -/
def busyWork (jobs : List Int) (workers : Nat) (events : List BusyEvent) : List PoolEvent :=
  trace busyStep BusyPool.does (busyStart jobs workers) events

/-- What a run does and what is left after it make up what there is to do. -/
theorem remaining_run {jobs : List Int} (hjobs : Testable jobs) {workers : Nat}
    (hworkers : 0 < workers) (events : List BusyEvent) :
    (busyRun jobs workers events).remaining + (busyWork jobs workers events).length =
      3 * jobs.length + 2 * workers + 1 := by
  have hstep : ∀ pool event next, BusyOk jobs workers pool → True →
      busyStep pool event = some next → BusyOk jobs workers next ∧
        (-(next.remaining : Int)) = -(pool.remaining : Int) +
          ((pool.does event).map fun _ => (1 : Int)).sum := by
    intro pool event next hok _ h
    have hleft := remaining_step hjobs hok h
    refine ⟨(busy_refines hjobs hworkers pool event next hok trivial h).1, ?_⟩
    simp only [List.map_const', List.sum_replicate, nsmul_eq_mul, mul_one]
    omega
  have htotal := measure_trace (fun pool : BusyPool => -(pool.remaining : Int)) (fun _ => (1 : Int))
    hstep (meets_true events _) (busyOk_start jobs workers)
  have hfirst : (busyStart jobs workers).remaining = 3 * jobs.length + 2 * workers + 1 := by
    simp [BusyPool.remaining, busyStart, MainAt.stepsLeft, WorkerAt.stepsLeft]
    omega
  simp only [List.map_const', List.sum_replicate, nsmul_eq_mul, mul_one, hfirst] at htotal
  unfold busyRun busyWork
  omega

section BusyOk

variable {jobs : List Int} {workers : Nat} {pool : BusyPool}

/-- The jobs are taken in their order. -/
theorem BusyOk.taken_isPrefix (hok : BusyOk jobs workers pool) : taken pool.log <+: jobs := by
  have hslot := hok.inv.slot
  change Slot jobs pool.num pool.log pool.main at hslot
  cases hmain : pool.main with
  | giving rest =>
    rw [hmain] at hslot
    obtain ⟨hgiven, ⟨-, htaken⟩ | ⟨-, htaken⟩⟩ := hslot
    · exact ⟨rest, by rw [htaken, hgiven]⟩
    · rw [← htaken, List.append_assoc, List.singleton_append] at hgiven
      exact ⟨_, hgiven⟩
  | joining count =>
    rw [hmain] at hslot
    rw [hslot.2.2]

/-- Nothing is left to a pool that is over. -/
theorem BusyOk.remaining_of_over (hok : BusyOk jobs workers pool) (hover : pool.awake.Over) :
    pool.remaining = 0 := by
  have hmain : pool.main = .joining pool.workers.length := hover.1
  have hslot := hok.inv.slot
  change Slot jobs pool.num pool.log pool.main at hslot
  rw [hmain] at hslot
  have hplaces : (pool.workers.map WorkerAt.stepsLeft).sum = 0 := by
    rw [List.sum_eq_zero_iff]
    intro count hcount
    obtain ⟨place, hplace, rfl⟩ := List.mem_map.mp hcount
    rw [hover.2 place hplace]
    rfl
  simp only [BusyPool.remaining, hmain, MainAt.stepsLeft, hplaces, hslot.1]
  simp

/-- A pool that is over has printed the primes among its jobs. -/
theorem BusyOk.printed_primes (hok : BusyOk jobs workers pool) (hjobs : Testable jobs)
    (hover : pool.awake.Over) :
    (pool.printed.map Prod.snd).Perm (jobs.filter fun job => job.toNat.Prime) := by
  have hperm := printed_of_over hok.inv hok.ledger hok.fromJobs hover
  have hsame : jobs.filter mark = jobs.filter fun job => job.toNat.Prime := by
    refine List.filter_congr fun job hjob => ?_
    rw [Bool.eq_iff_iff, mark_iff_prime (hjobs job hjob).1, decide_eq_true_iff]
  rw [← hsame]
  exact hperm

end BusyOk

/-- The pool that spins is the pool that waits, without its waits: without the idle
rounds every run is an accepted run of that pool to the same state.  The jobs are taken
in their order; until all threads ended some thread can do something; every such step
lowers what is left, so there are at most three for each job, two for each worker and
one more, and exactly as many once all threads ended, when the primes among the jobs
are printed, each as often as it is a job. -/
theorem busy_pool {jobs : List Int} (hjobs : Testable jobs) {workers : Nat}
    (hworkers : 0 < workers) (events : List BusyEvent) :
    follow poolStep (poolStart jobs workers) (busyWork jobs workers events) =
      some (busyRun jobs workers events).awake ∧
    taken (busyRun jobs workers events).log <+: jobs ∧
    (¬ (busyRun jobs workers events).awake.Over →
      ∃ event, (busyStep (busyRun jobs workers events) event).isSome = true ∧
        (busyRun jobs workers events).does event ≠ []) ∧
    (busyWork jobs workers events).length ≤ 3 * jobs.length + 2 * workers + 1 ∧
    ((busyRun jobs workers events).awake.Over →
      (busyWork jobs workers events).length = 3 * jobs.length + 2 * workers + 1 ∧
      ((busyRun jobs workers events).printed.map Prod.snd).Perm
        (jobs.filter fun job => job.toNat.Prime)) := by
  obtain ⟨hok, hfollow⟩ := (busy_refines hjobs hworkers).run events (busyOk_start jobs workers)
  have hwork := remaining_run hjobs hworkers events
  refine ⟨?_, hok.taken_isPrefix, exists_does hjobs hworkers hok, by omega, ?_⟩
  · rw [← busyStart_awake]
    exact hfollow
  · intro hover
    have hnone : (busyRun jobs workers events).remaining = 0 := hok.remaining_of_over hover
    exact ⟨by omega, hok.printed_primes hjobs hover⟩

/-- One worker takes its one job, and goes around idle before and after. -/
theorem busy_pool_one :
    Testable [7] ∧ ¬ (busyRun [7] 1 [.pass 1, .pass 0, .pass 0, .pass 1]).awake.Over ∧
      ∃ event, (busyStep (busyRun [7] 1 [.pass 1, .pass 0, .pass 0, .pass 1])
          event).isSome = true ∧
        (busyRun [7] 1 [.pass 1, .pass 0, .pass 0, .pass 1]).does event ≠ [] := by
  have hover : ¬ (busyRun [7] 1 [.pass 1, .pass 0, .pass 0, .pass 1]).awake.Over := by
    intro h
    cases h.1
  exact ⟨by decide, hover, (busy_pool (by decide) (by decide) _).2.2.1 hover⟩

end LearnApue.Para.PrimerPool
