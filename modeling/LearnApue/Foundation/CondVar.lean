import LearnApue.Foundation.EventMachine

set_option autoImplicit false

/-!
# Sections under one mutex with condition variables

Any number of threads run sections of code under one mutex.  A section starts
with a test.  When the test fails, the thread waits on a condition variable,
which unlocks the mutex, and runs the section again from its test once it was
woken.  Otherwise the section changes what the mutex protects, tells at most
one condition variable about it, and unlocks the mutex.

What the mutex protects is seen by nobody between the lock and the unlock, so
one pass through a section is one event.  A thread can be woken by a signal, by
a broadcast, or for no reason.
-/

namespace LearnApue.Foundation.CondVar

/-- What a section tells the condition variables before it unlocks the mutex. -/
inductive Notify (κ : Type) where
  | silent
  | signal (cond : κ)
  | broadcast (cond : κ)
deriving DecidableEq, Repr

/-- One pass through a section: the thread waits, the section ends, or its
behaviour is undefined. -/
inductive Pass (σ κ ρ : Type) where
  | wait (cond : κ)
  | done (next : σ) (result : ρ) (notify : Notify κ)
  | fault
deriving DecidableEq, Repr

/-- A thread runs no section, is in the wait set of a condition variable, or was
woken and has not locked the mutex again. -/
inductive Thread (κ τ : Type) where
  | idle
  | waiting (cond : κ) (task : τ)
  | woken (task : τ)
deriving DecidableEq, Repr

/-- A section that ended: its thread, what the thread asked for and what it got. -/
structure Finished (τ ρ : Type) where
  thread : Nat
  task : τ
  result : ρ
deriving DecidableEq, Repr

/-- The data under the mutex, the threads, the sections that ended, oldest
first, and whether some section had undefined behaviour. -/
structure System (σ κ τ ρ : Type) where
  shared : σ
  threads : List (Thread κ τ)
  log : List (Finished τ ρ)
  fault : Bool
deriving DecidableEq, Repr

/-- What can happen.  A section that signals wakes the thread `chosen`. -/
inductive Event (τ : Type) where
  | call (thread : Nat) (task : τ) (chosen : Nat)
  | resume (thread chosen : Nat)
  | spurious (thread : Nat)
deriving DecidableEq, Repr

variable {σ κ τ ρ : Type}

/-- A thread after everything that waits on `cond` was woken. -/
def Thread.wakeOn [DecidableEq κ] (cond : κ) : Thread κ τ → Thread κ τ
  | .waiting own task => if own = cond then .woken task else .waiting own task
  | thread => thread

/-- The thread is in the wait set of `cond`. -/
def Thread.waitsOn [DecidableEq κ] (cond : κ) : Thread κ τ → Bool
  | .waiting own _ => own = cond
  | _ => false

/-- `threads` threads that run no section yet. -/
def start (shared : σ) (threads : Nat) : System σ κ τ ρ :=
  ⟨shared, List.replicate threads .idle, [], false⟩

/-- The task of an event that starts a section. -/
def Event.Asks (P : τ → Prop) : Event τ → Prop
  | .call _ task _ => P task
  | _ => True

/-- The task of a thread that is inside a section. -/
def Thread.Pending (P : τ → Prop) : Thread κ τ → Prop
  | .idle => True
  | .waiting _ task => P task
  | .woken task => P task

section

variable [DecidableEq κ]

/-- The threads after a notification.  A signal wakes a thread of the wait set;
with an empty wait set it wakes nobody. -/
def deliver (chosen : Nat) (threads : List (Thread κ τ)) :
    Notify κ → Option (List (Thread κ τ))
  | .silent => some threads
  | .broadcast cond => some (threads.map (Thread.wakeOn cond))
  | .signal cond =>
      if (threads[chosen]?.map (Thread.waitsOn cond)).getD false then
        some (threads.modify chosen (Thread.wakeOn cond))
      else if threads.any (Thread.waitsOn cond) then none
      else some threads

/-- One pass of a thread through its section, from the lock to the unlock or to
the wait. -/
def pass (body : τ → σ → Pass σ κ ρ) (system : System σ κ τ ρ) (thread : Nat) (task : τ)
    (chosen : Nat) : Option (System σ κ τ ρ) :=
  match body task system.shared with
  | .fault => some { system with fault := true }
  | .wait cond => some { system with threads := system.threads.set thread (.waiting cond task) }
  | .done next result notify =>
      (deliver chosen (system.threads.set thread .idle) notify).map fun threads =>
        { system with
          shared := next
          threads := threads
          log := system.log ++ [⟨thread, task, result⟩] }

/-- One event, when it is possible.  Nothing is said about what follows
undefined behaviour. -/
def step (body : τ → σ → Pass σ κ ρ) (system : System σ κ τ ρ) (event : Event τ) :
    Option (System σ κ τ ρ) :=
  if system.fault then none
  else
    match event with
    | .call thread task chosen =>
        match system.threads[thread]? with
        | some .idle => pass body system thread task chosen
        | _ => none
    | .resume thread chosen =>
        match system.threads[thread]? with
        | some (.woken task) => pass body system thread task chosen
        | _ => none
    | .spurious thread =>
        match system.threads[thread]? with
        | some (.waiting _ task) =>
            some { system with threads := system.threads.set thread (.woken task) }
        | _ => none

/-- The system after a sequence of events. -/
def run (body : τ → σ → Pass σ κ ρ) (system : System σ κ τ ρ) (events : List (Event τ)) :
    System σ κ τ ρ :=
  EventMachine.run (step body) system events

theorem run_append (body : τ → σ → Pass σ κ ρ) (system : System σ κ τ ρ)
    (first rest : List (Event τ)) :
    run body system (first ++ rest) = run body (run body system first) rest := by
  unfold run EventMachine.run
  exact List.foldl_append

/-! ## What one event can do -/

/-- Everything a step can do: a thread of a wait set is woken for no reason, or
a thread that is idle or was woken passes through its section. -/
theorem step_cases {body : τ → σ → Pass σ κ ρ} {system next : System σ κ τ ρ} {event : Event τ}
    (h : step body system event = some next) :
    system.fault = false ∧
      ((∃ thread cond task, system.threads[thread]? = some (.waiting cond task) ∧
          next = { system with threads := system.threads.set thread (.woken task) }) ∨
        ∃ thread task chosen,
          ((system.threads[thread]? = some .idle ∧ event = .call thread task chosen) ∨
            system.threads[thread]? = some (.woken task)) ∧
          pass body system thread task chosen = some next) := by
  unfold step at h
  split at h
  · cases h
  · rename_i hfault
    refine ⟨by simpa using hfault, ?_⟩
    cases event with
    | call thread task chosen =>
      simp only at h
      split at h
      · rename_i hidle
        exact Or.inr ⟨thread, task, chosen, Or.inl ⟨hidle, rfl⟩, h⟩
      · cases h
    | resume thread chosen =>
      simp only at h
      split at h
      · rename_i task hwoken
        exact Or.inr ⟨thread, task, chosen, Or.inr hwoken, h⟩
      · cases h
    | spurious thread =>
      simp only at h
      split at h
      · rename_i cond task hwaiting
        exact Or.inl ⟨thread, cond, task, hwaiting, (Option.some.inj h).symm⟩
      · cases h

/-- Everything a pass can do. -/
theorem pass_cases {body : τ → σ → Pass σ κ ρ} {system after : System σ κ τ ρ} {thread : Nat}
    {task : τ} {chosen : Nat} (h : pass body system thread task chosen = some after) :
    (body task system.shared = .fault ∧ after = { system with fault := true }) ∨
      (∃ cond, body task system.shared = .wait cond ∧
        after = { system with threads := system.threads.set thread (.waiting cond task) }) ∨
      ∃ next result notify threads, body task system.shared = .done next result notify ∧
        deliver chosen (system.threads.set thread .idle) notify = some threads ∧
        after = { system with
          shared := next
          threads := threads
          log := system.log ++ [⟨thread, task, result⟩] } := by
  unfold pass at h
  cases hbody : body task system.shared with
  | fault =>
    rw [hbody] at h
    exact Or.inl ⟨rfl, (Option.some.inj h).symm⟩
  | wait cond =>
    rw [hbody] at h
    exact Or.inr (Or.inl ⟨cond, rfl, (Option.some.inj h).symm⟩)
  | done next result notify =>
    rw [hbody] at h
    obtain ⟨threads, hdeliver, hafter⟩ := Option.map_eq_some_iff.mp h
    exact Or.inr (Or.inr ⟨next, result, notify, threads, rfl, hdeliver, hafter.symm⟩)

/-- A thread after a notification is the one before it, or was woken by it. -/
theorem mem_of_deliver {chosen : Nat} {threads woken : List (Thread κ τ)} {notify : Notify κ}
    (h : deliver chosen threads notify = some woken) {thread : Thread κ τ}
    (hmem : thread ∈ woken) :
    ∃ before ∈ threads, (thread = before ∧ ∀ cond, notify ≠ .broadcast cond) ∨
      ∃ cond, thread = before.wakeOn cond := by
  cases notify with
  | silent =>
    cases h
    exact ⟨thread, hmem, Or.inl ⟨rfl, fun cond heq => nomatch heq⟩⟩
  | broadcast own =>
    cases h
    obtain ⟨before, hbefore, hwoken⟩ := List.mem_map.mp hmem
    exact ⟨before, hbefore, Or.inr ⟨own, hwoken.symm⟩⟩
  | signal own =>
    have hsilent : ∀ cond, Notify.signal own ≠ .broadcast cond := fun cond heq => nomatch heq
    simp only [deliver] at h
    split at h
    · cases h
      obtain ⟨index, hindex⟩ := List.mem_iff_getElem?.mp hmem
      rw [List.getElem?_modify] at hindex
      obtain ⟨before, hbefore, hwoken⟩ := Option.map_eq_some_iff.mp hindex
      refine ⟨before, List.mem_of_getElem? hbefore, ?_⟩
      split at hwoken
      · exact Or.inr ⟨own, hwoken.symm⟩
      · exact Or.inl ⟨hwoken.symm, hsilent⟩
    · split at h
      · cases h
      · cases h
        exact ⟨thread, hmem, Or.inl ⟨rfl, hsilent⟩⟩

theorem wakeOn_eq_waiting {own cond : κ} {task : τ} {thread : Thread κ τ}
    (h : thread.wakeOn own = .waiting cond task) :
    thread = .waiting cond task ∧ own ≠ cond := by
  cases thread with
  | idle => simp [Thread.wakeOn] at h
  | woken other => simp [Thread.wakeOn] at h
  | waiting other otherTask =>
    simp only [Thread.wakeOn] at h
    split at h
    · cases h
    · rename_i hne
      cases h
      exact ⟨rfl, fun heq => hne heq.symm⟩

theorem pending_wakeOn {P : τ → Prop} {thread : Thread κ τ} (own : κ) (h : thread.Pending P) :
    (thread.wakeOn own).Pending P := by
  cases thread with
  | idle => exact h
  | woken task => exact h
  | waiting cond task =>
    simp only [Thread.wakeOn]
    split
    · exact h
    · exact h

/-- A notification only wakes threads: whoever is in a wait set afterwards was
there before. -/
theorem waiting_of_deliver {chosen : Nat} {threads woken : List (Thread κ τ)} {notify : Notify κ}
    (h : deliver chosen threads notify = some woken) {cond : κ} {task : τ}
    (hmem : Thread.waiting cond task ∈ woken) : Thread.waiting cond task ∈ threads := by
  obtain ⟨before, hbefore, ⟨heq, -⟩ | ⟨own, heq⟩⟩ := mem_of_deliver h hmem
  · exact heq ▸ hbefore
  · exact (wakeOn_eq_waiting heq.symm).1 ▸ hbefore

/-- A broadcast empties the wait set. -/
theorem not_waiting_of_broadcast {chosen : Nat} {threads woken : List (Thread κ τ)} {cond : κ}
    (h : deliver chosen threads (.broadcast cond) = some woken) (task : τ) :
    Thread.waiting cond task ∉ woken := by
  cases h
  intro hmem
  obtain ⟨before, -, hwoken⟩ := List.mem_map.mp hmem
  exact (wakeOn_eq_waiting hwoken).2 rfl

/-- Some threads of the wait sets were woken, the others are as before. -/
structure Woken (threads after : List (Thread κ τ)) : Prop where
  length : after.length = threads.length
  each : ∀ index : Nat, after[index]? = threads[index]? ∨
    ∃ cond task, threads[index]? = some (.waiting cond task) ∧ after[index]? = some (.woken task)

omit [DecidableEq κ] in
/-- Whoever waits after some threads were woken waited before. -/
theorem Woken.waiting {threads after : List (Thread κ τ)} (h : Woken threads after) {index : Nat}
    {cond : κ} {task : τ} (hwaiting : after[index]? = some (.waiting cond task)) :
    threads[index]? = some (.waiting cond task) := by
  rcases h.each index with hsame | ⟨own, other, -, hwoken⟩
  · exact hsame ▸ hwaiting
  · rw [hwoken] at hwaiting
    cases hwaiting

theorem wakeOn_cases (cond : κ) (thread : Thread κ τ) :
    thread.wakeOn cond = thread ∨
      ∃ task, thread = .waiting cond task ∧ thread.wakeOn cond = .woken task := by
  cases thread with
  | idle => exact Or.inl rfl
  | woken task => exact Or.inl rfl
  | waiting own task =>
    simp only [Thread.wakeOn]
    split
    · rename_i hown
      exact Or.inr ⟨task, by rw [hown], rfl⟩
    · exact Or.inl rfl

omit [DecidableEq κ] in
theorem woken_set {threads : List (Thread κ τ)} {index : Nat} {cond : κ} {task : τ}
    (h : threads[index]? = some (.waiting cond task)) :
    Woken threads (threads.set index (.woken task)) := by
  refine ⟨List.length_set, fun other => ?_⟩
  obtain ⟨hlt, -⟩ := List.getElem?_eq_some_iff.mp h
  rcases eq_or_ne index other with rfl | hne
  · exact Or.inr ⟨cond, task, h, List.getElem?_set_self hlt⟩
  · exact Or.inl (List.getElem?_set_ne hne)

/-- A notification does nothing but wake threads. -/
theorem woken_of_deliver {chosen : Nat} {threads after : List (Thread κ τ)} {notify : Notify κ}
    (h : deliver chosen threads notify = some after) : Woken threads after := by
  cases notify with
  | silent =>
    cases h
    exact ⟨rfl, fun index => Or.inl rfl⟩
  | broadcast cond =>
    cases h
    refine ⟨List.length_map _, fun index => ?_⟩
    rw [List.getElem?_map]
    cases hthread : threads[index]? with
    | none => exact Or.inl rfl
    | some thread =>
      rcases wakeOn_cases cond thread with hsame | ⟨task, hwaiting, hwoken⟩
      · exact Or.inl (by rw [Option.map_some, hsame])
      · exact Or.inr ⟨cond, task, by rw [hwaiting], by rw [Option.map_some, hwoken]⟩
  | signal cond =>
    simp only [deliver] at h
    split at h
    · cases h
      refine ⟨List.length_modify _ _ _, fun index => ?_⟩
      rw [List.getElem?_modify]
      cases hthread : threads[index]? with
      | none => exact Or.inl rfl
      | some thread =>
        rcases wakeOn_cases cond thread with hsame | ⟨task, hwaiting, hwoken⟩
        · refine Or.inl ?_
          rw [Option.map_eq_map, Option.map_some]
          split
          · rw [hsame]
          · rfl
        · rw [Option.map_eq_map, Option.map_some]
          split
          · exact Or.inr ⟨cond, task, by rw [hwaiting], by rw [hwoken]⟩
          · exact Or.inl rfl
    · split at h
      · cases h
      · cases h
        exact ⟨rfl, fun index => Or.inl rfl⟩

/-- A signal wakes a thread of its wait set, unless the wait set is empty. -/
theorem signal_wakes {chosen : Nat} {threads after : List (Thread κ τ)} {cond : κ}
    (h : deliver chosen threads (.signal cond) = some after) :
    (∃ (index : Nat) (task : τ), threads[index]? = some (.waiting cond task) ∧
        after[index]? = some (.woken task)) ∨
      ∀ (index : Nat) (task : τ), threads[index]? ≠ some (.waiting cond task) := by
  simp only [deliver] at h
  split at h
  · rename_i hchosen
    cases h
    cases hthread : threads[chosen]? with
    | none =>
      rw [hthread] at hchosen
      cases hchosen
    | some thread =>
      rw [hthread] at hchosen
      cases thread with
      | idle => cases hchosen
      | woken task => cases hchosen
      | waiting own task =>
        obtain rfl : own = cond := of_decide_eq_true hchosen
        refine Or.inl ⟨chosen, task, hthread, ?_⟩
        rw [List.getElem?_modify, hthread]
        simp [Thread.wakeOn]
  · split at h
    · cases h
    · rename_i hnone
      refine Or.inr fun index task hwaiting => hnone ?_
      rw [List.any_eq_true]
      exact ⟨_, List.mem_of_getElem? hwaiting, by simp [Thread.waitsOn]⟩

/-- A notification can always be delivered: a signal finds a thread of its wait
set or nobody. -/
theorem exists_deliver (threads : List (Thread κ τ)) (notify : Notify κ) :
    ∃ chosen after, deliver chosen threads notify = some after := by
  cases notify with
  | silent => exact ⟨0, _, rfl⟩
  | broadcast cond => exact ⟨0, _, rfl⟩
  | signal cond =>
    cases hany : threads.any (Thread.waitsOn cond) with
    | false =>
      refine ⟨threads.length, threads, ?_⟩
      simp [deliver, hany]
    | true =>
      obtain ⟨thread, hmem, hwaits⟩ := List.any_eq_true.mp hany
      obtain ⟨chosen, hchosen⟩ := List.mem_iff_getElem?.mp hmem
      refine ⟨chosen, threads.modify chosen (Thread.wakeOn cond), ?_⟩
      simp [deliver, hchosen, hwaits]

/-- A thread that has the mutex always gets through its section or to a wait. -/
theorem exists_pass (body : τ → σ → Pass σ κ ρ) (system : System σ κ τ ρ) (thread : Nat)
    (task : τ) : ∃ chosen after, pass body system thread task chosen = some after := by
  cases hbody : body task system.shared with
  | fault => exact ⟨0, _, by rw [pass, hbody]⟩
  | wait cond => exact ⟨0, _, by rw [pass, hbody]⟩
  | done next result notify =>
    obtain ⟨chosen, after, hdeliver⟩ := exists_deliver (system.threads.set thread .idle) notify
    exact ⟨chosen, _, by rw [pass, hbody]; exact congrArg (Option.map _) hdeliver⟩

/-- What holds of the tasks of all threads holds of them after a notification. -/
theorem pending_of_deliver {P : τ → Prop} {chosen : Nat} {threads woken : List (Thread κ τ)}
    {notify : Notify κ} (h : deliver chosen threads notify = some woken)
    (hpending : ∀ thread ∈ threads, thread.Pending P) :
    ∀ thread ∈ woken, thread.Pending P := by
  intro thread hmem
  obtain ⟨before, hbefore, ⟨heq, -⟩ | ⟨own, heq⟩⟩ := mem_of_deliver h hmem
  · exact heq ▸ hpending before hbefore
  · exact heq ▸ pending_wakeOn own (hpending before hbefore)

end

/-! ## Contracts of sections -/

/-- A contract of the sections that ask for a task in `P`: on data in `I` their
behaviour is defined, they leave data in `I`, and their results are in `L`. -/
structure Contract (body : τ → σ → Pass σ κ ρ) (P : τ → Prop) (I : σ → Prop)
    (L : τ → ρ → Prop) : Prop where
  defined : ∀ task shared, P task → I shared → body task shared ≠ .fault
  keeps : ∀ task shared next result notify, P task → I shared →
    body task shared = .done next result notify → I next
  result : ∀ task shared next result notify, P task → I shared →
    body task shared = .done next result notify → L task result

/-- The systems that runs under a contract stay in. -/
structure Sound (P : τ → Prop) (I : σ → Prop) (L : τ → ρ → Prop)
    (system : System σ κ τ ρ) : Prop where
  fault : system.fault = false
  shared : I system.shared
  pending : ∀ thread ∈ system.threads, thread.Pending P
  log : ∀ entry ∈ system.log, L entry.task entry.result

/-- The threads of the wait sets wait for what the data do not give now. -/
def Alert (body : τ → σ → Pass σ κ ρ) (system : System σ κ τ ρ) : Prop :=
  ∀ cond task, Thread.waiting cond task ∈ system.threads → body task system.shared = .wait cond

variable {body : τ → σ → Pass σ κ ρ} {P : τ → Prop} {I : σ → Prop} {L : τ → ρ → Prop}

theorem sound_start {shared : σ} (threads : Nat) (h : I shared) :
    Sound P I L (start shared threads : System σ κ τ ρ) := by
  refine ⟨rfl, h, ?_, fun entry hentry => nomatch hentry⟩
  intro thread hthread
  rw [List.eq_of_mem_replicate hthread]
  trivial

theorem alert_start (shared : σ) (threads : Nat) :
    Alert body (start shared threads : System σ κ τ ρ) := by
  intro cond task hmem
  exact nomatch List.eq_of_mem_replicate hmem

/-- The task of a thread that passes through its section is in `P`. -/
theorem Sound.task {system : System σ κ τ ρ} (hsound : Sound P I L system) {event : Event τ}
    (hasks : event.Asks P) {thread : Nat} {task : τ} {chosen : Nat}
    (h : (system.threads[thread]? = some .idle ∧ event = .call thread task chosen) ∨
      system.threads[thread]? = some (.woken task)) : P task := by
  rcases h with ⟨-, rfl⟩ | hwoken
  · exact hasks
  · exact hsound.pending _ (List.mem_of_getElem? hwoken)

section

variable [DecidableEq κ]

/-- One event leaves no thread in a wait set with its test true, when a section that
ends without a broadcast keeps the test of everybody in the wait set false. -/
theorem Alert.step {system next : System σ κ τ ρ} {event : Event τ} (halert : Alert body system)
    (h : CondVar.step body system event = some next)
    (hkeeps : ∀ thread task chosen data result notify cond waiter,
      ((system.threads[thread]? = some .idle ∧ event = .call thread task chosen) ∨
        system.threads[thread]? = some (.woken task)) →
      Thread.waiting cond waiter ∈ system.threads →
      body task system.shared = .done data result notify → notify ≠ .broadcast cond →
      body waiter data = .wait cond) :
    Alert body next := by
  intro cond waiter hmem
  obtain ⟨-, ⟨thread, own, task, -, rfl⟩ | ⟨thread, task, chosen, hthread, hpass⟩⟩ := step_cases h
  · rcases List.mem_or_eq_of_mem_set hmem with hold | heq
    · exact halert cond waiter hold
    · cases heq
  · obtain ⟨-, rfl⟩ | ⟨own, hwait, rfl⟩ | ⟨data, result, notify, threads, hdone, hdeliver, rfl⟩ :=
      pass_cases hpass
    · exact halert cond waiter hmem
    · rcases List.mem_or_eq_of_mem_set hmem with hold | heq
      · exact halert cond waiter hold
      · cases heq
        exact hwait
    · have hold : Thread.waiting cond waiter ∈ system.threads := by
        rcases List.mem_or_eq_of_mem_set (waiting_of_deliver hdeliver hmem) with hold | heq
        · exact hold
        · cases heq
      apply hkeeps thread task chosen data result notify cond waiter hthread hold hdone
      rintro rfl
      exact not_waiting_of_broadcast hdeliver waiter hmem

/-- What a contract says of one event: it keeps the system sound, and a section
that ends is one of the contract's. -/
theorem Contract.step (hbody : Contract body P I L) {system next : System σ κ τ ρ}
    {event : Event τ} (hasks : event.Asks P) (hsound : Sound P I L system)
    (h : step body system event = some next) : Sound P I L next := by
  have hset : ∀ thread (state : Thread κ τ), state.Pending P →
      ∀ other ∈ system.threads.set thread state, other.Pending P := by
    intro thread state hstate other hother
    rcases List.mem_or_eq_of_mem_set hother with hmem | heq
    · exact hsound.pending other hmem
    · exact heq ▸ hstate
  obtain ⟨-, ⟨thread, cond, task, hwaiting, rfl⟩ | ⟨thread, task, chosen, hthread, hpass⟩⟩ :=
    step_cases h
  · have htask : P task := hsound.pending _ (List.mem_of_getElem? hwaiting)
    exact ⟨hsound.fault, hsound.shared, hset thread (.woken task) htask, hsound.log⟩
  · have htask : P task := hsound.task hasks hthread
    obtain ⟨hfault, -⟩ | ⟨cond, -, rfl⟩ | ⟨data, result, notify, threads, hdone, hdeliver, rfl⟩ :=
      pass_cases hpass
    · exact absurd hfault (hbody.defined task system.shared htask hsound.shared)
    · exact ⟨hsound.fault, hsound.shared, hset thread (.waiting cond task) htask, hsound.log⟩
    · refine ⟨hsound.fault, hbody.keeps task _ _ _ _ htask hsound.shared hdone,
        pending_of_deliver hdeliver (hset thread .idle trivial), ?_⟩
      intro entry hentry
      rcases List.mem_append.mp hentry with hold | hnew
      · exact hsound.log entry hold
      · rw [List.mem_singleton.mp hnew]
        exact hbody.result task _ _ _ _ htask hsound.shared hdone

/-- A run under a contract: what a step keeps of sound systems holds at the
end. -/
theorem Contract.run_induction (hbody : Contract body P I L) {J : System σ κ τ ρ → Prop}
    (hstep : ∀ system event next, Sound P I L system → event.Asks P → J system →
      CondVar.step body system event = some next → J next)
    {system : System σ κ τ ρ} (hsound : Sound P I L system) (hJ : J system)
    (events : List (Event τ)) (hasks : ∀ event ∈ events, event.Asks P) :
    Sound P I L (CondVar.run body system events) ∧ J (CondVar.run body system events) := by
  induction events generalizing system with
  | nil => exact ⟨hsound, hJ⟩
  | cons event rest ih =>
    have hrest : ∀ event ∈ rest, event.Asks P := fun other hother =>
      hasks other (List.mem_cons_of_mem _ hother)
    have hevent : event.Asks P := hasks event List.mem_cons_self
    have hrun : CondVar.run body system (event :: rest) =
        CondVar.run body (EventMachine.apply (CondVar.step body) system event) rest := rfl
    rw [hrun, EventMachine.apply]
    cases hs : CondVar.step body system event with
    | none => exact ih hsound hJ hrest
    | some next =>
      exact ih (hbody.step hevent hsound hs) (hstep system event next hsound hevent hJ hs) hrest

theorem Contract.run (hbody : Contract body P I L) {system : System σ κ τ ρ}
    (hsound : Sound P I L system) (events : List (Event τ))
    (hasks : ∀ event ∈ events, event.Asks P) : Sound P I L (CondVar.run body system events) := by
  have hboth := @Contract.run_induction σ κ τ ρ body P I L _ hbody (fun _ => True)
    (fun _ _ _ _ _ _ _ => trivial) system hsound trivial events hasks
  exact hboth.1

/-- When whatever a section leaves without a broadcast keeps every waiting
thread's test false, no thread is left in a wait set with its test true. -/
theorem Contract.alert (hbody : Contract body P I L)
    (hkeeps : ∀ task shared next result notify cond waiter, P task → P waiter → I shared →
      body task shared = .done next result notify → body waiter shared = .wait cond →
      notify ≠ .broadcast cond → body waiter next = .wait cond)
    {system : System σ κ τ ρ} (hsound : Sound P I L system) (halert : Alert body system)
    (events : List (Event τ)) (hasks : ∀ event ∈ events, event.Asks P) :
    Alert body (CondVar.run body system events) := by
  refine (hbody.run_induction ?_ hsound halert events hasks).2
  intro system event next hsound hevent halert h
  refine halert.step h ?_
  intro thread task chosen data result notify cond waiter hthread hwaiting hdone hnotify
  exact hkeeps task system.shared data result notify cond waiter (hsound.task hevent hthread)
    (hsound.pending _ hwaiting) hsound.shared hdone (halert cond waiter hwaiting) hnotify

/-- When every section pays for what it adds to a measure of the data, the
measure grows over a run by at most what the sections that ended in it pay. -/
theorem Contract.charge (hbody : Contract body P I L) (measure : σ → Int)
    (pays : Finished τ ρ → Int)
    (hpays : ∀ thread task shared next result notify, P task → I shared →
      body task shared = .done next result notify →
      measure next ≤ measure shared + pays ⟨thread, task, result⟩)
    {system : System σ κ τ ρ} (hsound : Sound P I L system) (events : List (Event τ))
    (hasks : ∀ event ∈ events, event.Asks P) :
    ∃ ended, (CondVar.run body system events).log = system.log ++ ended ∧
      measure (CondVar.run body system events).shared ≤
        measure system.shared + (ended.map pays).sum := by
  have hstart : ∃ ended, system.log = system.log ++ ended ∧
      measure system.shared ≤ measure system.shared + (ended.map pays).sum :=
    ⟨[], by simp, by simp⟩
  refine (@Contract.run_induction σ κ τ ρ body P I L _ hbody
    (fun now => ∃ ended, now.log = system.log ++ ended ∧
      measure now.shared ≤ measure system.shared + (ended.map pays).sum)
    ?_ system hsound hstart events hasks).2
  intro now event next hnow hevent hpaid h
  obtain ⟨ended, hlog, hmeasure⟩ := hpaid
  obtain ⟨-, ⟨thread, own, task, -, rfl⟩ | ⟨thread, task, chosen, hthread, hpass⟩⟩ := step_cases h
  · exact ⟨ended, hlog, hmeasure⟩
  · obtain ⟨-, rfl⟩ | ⟨own, -, rfl⟩ | ⟨data, result, notify, threads, hdone, -, rfl⟩ :=
      pass_cases hpass
    · exact ⟨ended, hlog, hmeasure⟩
    · exact ⟨ended, hlog, hmeasure⟩
    · refine ⟨ended ++ [⟨thread, task, result⟩], by simp [hlog], ?_⟩
      have hone := hpays thread task now.shared data result notify (hnow.task hevent hthread)
        hnow.shared hdone
      simp only [List.map_append, List.map_cons, List.map_nil, List.sum_append, List.sum_cons,
        List.sum_nil]
      omega

/-! ## Sections whose behaviour may be undefined -/

/-- What every section that ends keeps of the data and the log holds after every run,
also of one that comes to undefined behaviour. -/
theorem run_keeps {J : List (Finished τ ρ) → σ → Prop}
    (hdone : ∀ log thread task shared next result notify, J log shared →
      body task shared = .done next result notify → J (log ++ [⟨thread, task, result⟩]) next)
    {system : System σ κ τ ρ} (h : J system.log system.shared) (events : List (Event τ)) :
    J (CondVar.run body system events).log (CondVar.run body system events).shared := by
  refine @EventMachine.run_induction (System σ κ τ ρ) (Event τ) (CondVar.step body)
    (fun system => J system.log system.shared) ?_ events system h
  intro now event next hnow hs
  obtain ⟨-, ⟨thread, own, task, -, rfl⟩ | ⟨thread, task, chosen, -, hpass⟩⟩ := step_cases hs
  · exact hnow
  · obtain ⟨-, rfl⟩ | ⟨own, -, rfl⟩ | ⟨data, result, notify, threads, hend, -, rfl⟩ :=
      pass_cases hpass
    · exact hnow
    · exact hnow
    · exact hdone now.log thread task now.shared data result notify hnow hend

/-- The task whose section an event runs, when it runs one. -/
def System.task (system : System σ κ τ ρ) : Event τ → Option τ
  | .call thread task _ =>
      match system.threads[thread]? with
      | some .idle => some task
      | _ => none
  | .resume thread _ =>
      match system.threads[thread]? with
      | some (.woken task) => some task
      | _ => none
  | .spurious _ => none

/-- The event runs a section whose behaviour is undefined. -/
def Faults (body : τ → σ → Pass σ κ ρ) (system : System σ κ τ ρ) (event : Event τ) : Prop :=
  ∃ task, system.task event = some task ∧ body task system.shared = .fault

theorem pass_fault_iff {system next : System σ κ τ ρ} (hfault : system.fault = false)
    {thread : Nat} {task : τ} {chosen : Nat}
    (h : pass body system thread task chosen = some next) :
    next.fault = true ↔ body task system.shared = .fault := by
  obtain ⟨hbody, rfl⟩ | ⟨own, hbody, rfl⟩ | ⟨data, result, notify, threads, hbody, -, rfl⟩ :=
    pass_cases h
  · exact ⟨fun _ => hbody, fun _ => rfl⟩
  · rw [hbody]
    simp [hfault]
  · rw [hbody]
    simp [hfault]

/-- An event that is possible leads to undefined behaviour exactly when its section
has it. -/
theorem step_fault_iff {system next : System σ κ τ ρ} {event : Event τ}
    (h : CondVar.step body system event = some next) :
    next.fault = true ↔ Faults body system event := by
  unfold CondVar.step at h
  unfold Faults System.task
  split at h
  · cases h
  · rename_i hfault
    rw [Bool.not_eq_true] at hfault
    cases event with
    | call thread task chosen =>
      dsimp only at h ⊢
      split at h
      · rename_i hidle
        rw [pass_fault_iff hfault h]
        simp
      · cases h
    | resume thread chosen =>
      dsimp only at h ⊢
      split at h
      · rename_i task hwoken
        rw [pass_fault_iff hfault h]
        simp
      · cases h
    | spurious thread =>
      dsimp only at h ⊢
      split at h
      · cases h
        simp [hfault]
      · cases h

theorem run_of_fault {system : System σ κ τ ρ} (h : system.fault = true)
    (events : List (Event τ)) : CondVar.run body system events = system := by
  induction events with
  | nil => rfl
  | cons event rest ih =>
    have hstay : EventMachine.apply (CondVar.step body) system event = system := by
      unfold EventMachine.apply CondVar.step
      rw [if_pos h]
      rfl
    rw [CondVar.run, EventMachine.run_cons, hstay]
    exact ih

/-- A run has defined behaviour exactly when no section of it faults. -/
theorem run_fault_iff {system : System σ κ τ ρ} (h : system.fault = false)
    (events : List (Event τ)) :
    (CondVar.run body system events).fault = false ↔
      EventMachine.Meets (CondVar.step body) (fun system event => ¬ Faults body system event)
        system events := by
  induction events generalizing system with
  | nil => exact ⟨fun _ => trivial, fun _ => h⟩
  | cons event rest ih =>
    have hrun : CondVar.run body system (event :: rest) =
        CondVar.run body (EventMachine.apply (CondVar.step body) system event) rest := rfl
    rw [hrun, EventMachine.Meets]
    cases hs : CondVar.step body system event with
    | none =>
      have hsame : EventMachine.apply (CondVar.step body) system event = system := by
        rw [EventMachine.apply, hs]
        rfl
      rw [hsame, ih h]
      simp
    | some next =>
      have hnext : EventMachine.apply (CondVar.step body) system event = next := by
        rw [EventMachine.apply, hs]
        rfl
      have hfaults := step_fault_iff hs
      rw [hnext, ← hfaults]
      cases hfault : next.fault with
      | true =>
        rw [run_of_fault hfault, hfault]
        simp
      | false =>
        rw [ih hfault]
        simp

theorem run_alert
    (hkeeps : ∀ task shared next result notify cond waiter,
      body task shared = .done next result notify → body waiter shared = .wait cond →
      notify ≠ .broadcast cond → body waiter next = .wait cond)
    {system : System σ κ τ ρ} (halert : Alert body system) (events : List (Event τ)) :
    Alert body (CondVar.run body system events) := by
  refine EventMachine.run_induction (CondVar.step body) ?_ events halert
  intro system event next halert h
  refine halert.step h ?_
  intro thread task chosen data result notify cond waiter _ hwaiting hdone hnotify
  exact hkeeps task system.shared data result notify cond waiter hdone
    (halert cond waiter hwaiting) hnotify

end

end LearnApue.Foundation.CondVar
