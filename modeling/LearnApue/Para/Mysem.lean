import LearnApue.Foundation.CInt
import LearnApue.Foundation.CondVar

set_option autoImplicit false

/-!
# A semaphore that counts

`mysem/mysem.c`: `mysem_add` puts any number of units into a semaphore and wakes
everybody, and `mysem_sub` waits until as many units are there as it asks for and
takes them.  Requests of different sizes wait on one condition variable.

A sum that leaves `int` is undefined behaviour, and nothing is said about what
follows it.
-/

namespace LearnApue.Para

open LearnApue.Foundation LearnApue.Foundation.CondVar

/-! ## The transcription -/

/-- `struct mysem_st`, without its locks. -/
structure MysemSt where
  value : Int
deriving DecidableEq, Repr

/-- The calls of the threads. -/
inductive MysemCall where
  | add (value : Int)
  | sub (value : Int)
deriving DecidableEq, Repr

/-- What a call returns: -1 with `EINVAL`, or its amount. -/
inductive MysemResult where
  | einval
  | units (value : Int)
deriving DecidableEq, Repr

/-- `mysem_init`. -/
def mysemInit (initval : Int) : MysemSt := ⟨initval⟩

/-- `mysem_add`. -/
def mysemAdd (value : Int) (me : MysemSt) : Pass MysemSt Unit MysemResult :=
  if value < 0 then .done me .einval .silent
  else
    match toInt? (me.value + value) with
    | none => .fault
    | some sum => .done { me with value := sum } (.units value) (.broadcast ())

/-- `mysem_sub`. -/
def mysemSub (value : Int) (me : MysemSt) : Pass MysemSt Unit MysemResult :=
  if value < 0 then .done me .einval .silent
  else if me.value < value then .wait ()
  else
    match toInt? (me.value - value) with
    | none => .fault
    | some rest => .done { me with value := rest } (.units value) .silent

/-- One pass of a call through its section. -/
def mysemPass : MysemCall → MysemSt → Pass MysemSt Unit MysemResult
  | .add value => mysemAdd value
  | .sub value => mysemSub value

/-- A semaphore and the threads that use it. -/
abbrev MysemSystem := System MysemSt Unit MysemCall MysemResult

/-- A semaphore right after `mysem_init`. -/
def mysemStart (initval : Int) (threads : Nat) : MysemSystem := start (mysemInit initval) threads

/-- A run of the threads. -/
def mysemRun (system : MysemSystem) (events : List (Event MysemCall)) : MysemSystem :=
  run mysemPass system events

/-! ## Conservation -/

/-- The units that a call is to put in; one with a negative amount puts in none. -/
def addedBy : MysemCall → Int
  | .add value => if 0 ≤ value then value else 0
  | .sub _ => 0

/-- The units that a call is to take out. -/
def subtractedBy : MysemCall → Int
  | .add _ => 0
  | .sub value => if 0 ≤ value then value else 0

/-- The completed additions. -/
def added (ended : List (Finished MysemCall MysemResult)) : Int :=
  (ended.map fun entry => addedBy entry.task).sum

/-- The completed subtractions. -/
def subtracted (ended : List (Finished MysemCall MysemResult)) : Int :=
  (ended.map fun entry => subtractedBy entry.task).sum

/-- What a call that ends does: the value changes by what it puts in or takes out,
it does not get negative, and an increase is announced. -/
theorem mysemPass_done {call : MysemCall} {me next : MysemSt} {result : MysemResult}
    {notify : Notify Unit} (h : mysemPass call me = .done next result notify) :
    next.value = me.value + addedBy call - subtractedBy call ∧
      (0 ≤ me.value → 0 ≤ next.value) ∧ (notify = .broadcast () ∨ next.value ≤ me.value) := by
  cases call with
  | add value =>
    simp only [mysemPass, mysemAdd] at h
    simp only [addedBy, subtractedBy]
    split at h
    · rename_i hvalue
      cases h
      exact ⟨by rw [if_neg (not_le.mpr hvalue)]; omega, id, Or.inr le_rfl⟩
    · rename_i hvalue
      split at h
      · cases h
      · rename_i sum hsum
        cases h
        rw [(toInt?_eq_some_iff.mp hsum).1, if_pos (not_lt.mp hvalue)]
        exact ⟨by dsimp only; omega, fun hnonneg => by dsimp only; omega, Or.inl rfl⟩
  | sub value =>
    simp only [mysemPass, mysemSub] at h
    simp only [addedBy, subtractedBy]
    split at h
    · rename_i hvalue
      cases h
      exact ⟨by rw [if_neg (not_le.mpr hvalue)]; omega, id, Or.inr le_rfl⟩
    · rename_i hvalue
      split at h
      · cases h
      · rename_i henough
        split at h
        · cases h
        · rename_i rest hrest
          cases h
          rw [(toInt?_eq_some_iff.mp hrest).1, if_pos (not_lt.mp hvalue)]
          exact ⟨by dsimp only; omega, fun _ => by dsimp only; omega,
            Or.inr (by dsimp only; omega)⟩

/-- Only a subtraction waits, for more than there is. -/
theorem mysemPass_wait_iff {call : MysemCall} {me : MysemSt} {cond : Unit} :
    mysemPass call me = .wait cond ↔
      ∃ value, call = .sub value ∧ 0 ≤ value ∧ me.value < value := by
  cases call with
  | add value =>
    simp only [mysemPass, mysemAdd, reduceCtorEq, false_and, exists_false, iff_false]
    split
    · nofun
    · split <;> nofun
  | sub value =>
    simp only [mysemPass, mysemSub, MysemCall.sub.injEq, exists_eq_left']
    split
    · rename_i hvalue
      exact ⟨nofun, fun h => by omega⟩
    · rename_i hvalue
      split
      · rename_i hless
        exact ⟨fun _ => ⟨not_lt.mp hvalue, hless⟩, fun _ => rfl⟩
      · rename_i henough
        refine ⟨?_, fun h => absurd h.2 henough⟩
        split <;> nofun

/-- The only undefined behaviour is an addition whose sum leaves `int`. -/
theorem mysemPass_fault_iff {call : MysemCall} {me : MysemSt} (hnonneg : 0 ≤ me.value)
    (hint : InInt me.value) :
    mysemPass call me = .fault ↔
      ∃ value, call = .add value ∧ 0 ≤ value ∧ intMax < me.value + value := by
  unfold InInt intMin at hint
  cases call with
  | add value =>
    simp only [mysemPass, mysemAdd, MysemCall.add.injEq, exists_eq_left']
    split
    · exact ⟨nofun, fun h => by omega⟩
    · rename_i hvalue
      cases hsum : toInt? (me.value + value) with
      | none =>
        have hout := toInt?_eq_none_iff.mp hsum
        unfold InInt intMin at hout
        exact ⟨fun _ => ⟨not_lt.mp hvalue, by omega⟩, fun _ => rfl⟩
      | some sum =>
        have hin := (toInt?_eq_some_iff.mp hsum).2
        unfold InInt at hin
        exact ⟨nofun, fun h => by omega⟩
  | sub value =>
    simp only [mysemPass, mysemSub, reduceCtorEq, false_and, exists_false, iff_false]
    split
    · nofun
    · split
      · nofun
      · have hin : InInt (me.value - value) := ⟨by unfold intMin; omega, by omega⟩
        rw [toInt?_eq_some hin]
        nofun

/-! ## Runs -/

/-- The value of a semaphore is what the completed calls left of the first one. -/
structure Conserved (initval : Int) (log : List (Finished MysemCall MysemResult))
    (me : MysemSt) : Prop where
  nonneg : 0 ≤ me.value
  balance : me.value = initval + added log - subtracted log

theorem Conserved.done {initval : Int} {log : List (Finished MysemCall MysemResult)}
    {me next : MysemSt} (h : Conserved initval log me) {thread : Nat} {call : MysemCall}
    {result : MysemResult} {notify : Notify Unit}
    (hdone : mysemPass call me = .done next result notify) :
    Conserved initval (log ++ [⟨thread, call, result⟩]) next := by
  obtain ⟨hvalue, hnonneg, -⟩ := mysemPass_done hdone
  refine ⟨hnonneg h.nonneg, ?_⟩
  have hbalance := h.balance
  simp only [added, subtracted, List.map_append, List.map_cons, List.map_nil, List.sum_append,
    List.sum_cons, List.sum_nil] at hbalance ⊢
  omega

/-- Conservation of a semaphore and no lost wake-up.  Whatever any number of threads
do, the value is never negative and is the first one with the completed additions
and without the completed subtractions, and whoever is in the wait set asked for more
than there is. -/
theorem mysem_conserved {initval : Int} (hinit : 0 ≤ initval) (threads : Nat)
    (events : List (Event MysemCall)) :
    0 ≤ (mysemRun (mysemStart initval threads) events).shared.value ∧
      (mysemRun (mysemStart initval threads) events).shared.value =
        initval + added (mysemRun (mysemStart initval threads) events).log -
          subtracted (mysemRun (mysemStart initval threads) events).log ∧
      ∀ cond call, .waiting cond call ∈ (mysemRun (mysemStart initval threads) events).threads →
        ∃ value, call = .sub value ∧
          (mysemRun (mysemStart initval threads) events).shared.value < value := by
  have hstart : Conserved initval (mysemStart initval threads).log
      (mysemStart initval threads).shared :=
    ⟨hinit, by simp [mysemStart, start, mysemInit, added, subtracted]⟩
  have hconserved : Conserved initval (mysemRun (mysemStart initval threads) events).log
      (mysemRun (mysemStart initval threads) events).shared :=
    run_keeps (fun _ _ _ _ _ _ _ h hdone => h.done hdone) hstart events
  have halert : Alert mysemPass (mysemRun (mysemStart initval threads) events) := by
    refine run_alert ?_ (alert_start _ threads) events
    intro task shared next result notify cond waiter hdone hwait hnotify
    obtain ⟨value, rfl, hvalue, hless⟩ := mysemPass_wait_iff.mp hwait
    have hle := (mysemPass_done hdone).2.2.resolve_left hnotify
    exact mysemPass_wait_iff.mpr ⟨value, rfl, hvalue, hle.trans_lt hless⟩
  refine ⟨hconserved.nonneg, hconserved.balance, fun cond call hmem => ?_⟩
  obtain ⟨value, hcall, -, hless⟩ := mysemPass_wait_iff.mp (halert cond call hmem)
  exact ⟨value, hcall, hless⟩

/-- Two threads wait for different amounts; one addition wakes both, and is enough for one. -/
theorem mysem_conserved_two :
    (mysemRun (mysemStart 1 3) [.call 0 (.sub 2) 0, .call 1 (.sub 3) 0, .call 2 (.add 1) 0,
        .resume 1 0, .resume 0 0]).threads = [.idle, .waiting () (.sub 3), .idle] ∧
      ∀ cond call, .waiting cond call ∈ (mysemRun (mysemStart 1 3) [.call 0 (.sub 2) 0,
          .call 1 (.sub 3) 0, .call 2 (.add 1) 0, .resume 1 0, .resume 0 0]).threads →
        ∃ value, call = .sub value ∧
          (mysemRun (mysemStart 1 3) [.call 0 (.sub 2) 0, .call 1 (.sub 3) 0, .call 2 (.add 1) 0,
            .resume 1 0, .resume 0 0]).shared.value < value :=
  ⟨by decide +kernel, (mysem_conserved (by decide) 3 _).2.2⟩

end LearnApue.Para
