import LearnApue.Para.AnytimerFiring

set_option autoImplicit false

/-!
# In which scan a timer fires

Every scan that starts after a timer was added takes one second off it, and the one
that takes the last calls it back.  A callback runs in the middle of a scan, with the
table unlocked: what is added then must not get a slot ahead of the scan, or the scan
in progress takes a second off it as well.
-/

namespace LearnApue.Para

open LearnApue.Foundation LearnApue.Foundation.EventMachine

/-! ## Adding behind the scan -/

/-- The slot that an addition takes. -/
def takesSlot (state : AtState) : AtEvent → Option Nat
  | .add sec func answers =>
      if 0 ≤ sec ∧ func = true ∧ answers = ⟨true, none⟩ then getFreePosUnlocked state else none
  | _ => none

/-- A timer that is added while a callback runs gets a slot that the scan has passed. -/
def addsBehind (state : AtState) (event : AtEvent) : Bool :=
  match takesSlot state event, state.handler.callback with
  | some pos, some (i, _) => decide (pos < i)
  | _, _ => true

/-- Every call of `at_waittimer` leaves its loop alone, and nothing is added ahead of a
scan in progress. -/
def scansAlike (state : AtState) (event : AtEvent) : Bool :=
  leavesAlone state event && addsBehind state event

/-! ## What is left of a timer -/

/-- The handler has passed the slot in the scan in progress, or no scan is. -/
def HandlerPc.passed (pos : Nat) : HandlerPc → Bool
  | .sleeping => true
  | .scanning i => decide (pos < i)
  | .committed i _ => decide (pos ≤ i)
  | .inCallback i _ => decide (pos ≤ i)

/-- The slot that is behind the scan when it goes on is the one it was at. -/
theorem passed_succ {pos : Nat} (i : Nat) :
    (HandlerPc.scanning (i + 1)).passed pos = decide (pos ≤ i) :=
  decide_eq_decide.mpr Nat.lt_succ_iff

/-- How many of the scans that started after a timer was added have passed its slot. -/
def AtState.visits (state : AtState) (pos scan : Nat) : Nat :=
  state.scans - scan - if state.handler.passed pos then 0 else 1

/-- The scan in which a timer fires. -/
def dueScan (sec : Int) (scan : Nat) : Nat := scan + max 1 sec.toNat

/-- What a timer that was added has left, and when it fired. -/
structure Due (state : AtState) (me pos : Nat) (sec : Int) (scan : Nat) : Prop where
  started : scan ≤ state.scans
  ahead : state.handler.passed pos = false → scan < state.scans
  running : ∀ timer, state.timers[me]? = some timer → timer.flag = .running →
    timer.sec = sec - state.visits pos scan ∧
      (state.visits pos scan = 0 ∨ (state.visits pos scan : Int) < sec)
  executing : state.flagOf me = .executing → state.scans = dueScan sec scan
  fired : ∀ k, AtEntry.invoked me k ∈ state.log → k = dueScan sec scan

/-- What holds after every run whose steps keep the scans alike. -/
structure Scans (state : AtState) : Prop where
  firing : Firing state
  due : ∀ (me pos : Nat) (sec : Int) (scan : Nat),
    AtEntry.added me pos sec scan ∈ state.log → Due state me pos sec scan
  ended : ∀ k, AtEntry.scanEnded k ∈ state.log → k ≤ state.scans ∧
    ∀ (me pos : Nat) (sec : Int) (scan : Nat), AtEntry.added me pos sec scan ∈ state.log →
      dueScan sec scan ≤ k → (state.flagOf me).unfinished = false

theorem atInit_scans : Scans atInit := by
  refine ⟨atInit_firing, ?_, ?_⟩
  · intro me pos sec scan h
    cases h
  · intro k h
    cases h

section Due

variable {state next : AtState} {me pos scan : Nat} {sec : Int}

/-- A timer that runs is in the slot it was added to. -/
theorem Firing.job_of_running (firing : Firing state)
    (hadded : AtEntry.added me pos sec scan ∈ state.log) {timer : TimerSt}
    (ht : state.timers[me]? = some timer) (hflag : timer.flag.unfinished = true) :
    state.job pos = some me := by
  rcases firing.ledger.placed me pos sec scan hadded with h | ⟨call, hmem, _, hme, hholds⟩
  · exact h
  · -- a call that has cleared the slot had seen the timer finished
    exfalso
    obtain ⟨c, hcall⟩ := List.mem_iff_getElem?.mp hmem
    obtain ⟨timer', ht', _, hfinal⟩ := (firing.inv.calls c call hcall).timer
    rw [hme, ht] at ht'
    cases ht'
    have hleft : call.stage.left = true := by
      cases hstage : call.stage <;> rw [hstage] at hholds <;> first | rfl | cases hholds
    rw [hfinal hleft] at hflag
    cases hflag

theorem Firing.lt_length_of_added (firing : Firing state)
    (hadded : AtEntry.added me pos sec scan ∈ state.log) : me < state.timers.length := by
  rcases firing.ledger.placed me pos sec scan hadded with h | ⟨call, hmem, _, hme, _⟩
  · exact firing.inv.lt_length h
  · obtain ⟨c, hcall⟩ := List.mem_iff_getElem?.mp hmem
    obtain ⟨timer, ht, _⟩ := (firing.inv.calls c call hcall).timer
    rw [hme] at ht
    exact (List.getElem?_eq_some_iff.mp ht).1

/-- A timer that was added to the slot it is in. -/
theorem Firing.pos_of_job (firing : Firing state)
    (hadded : AtEntry.added me pos sec scan ∈ state.log) {i : Nat} {timer : TimerSt}
    (hjob : state.job i = some me) (ht : state.timers[me]? = some timer)
    (hflag : timer.flag.unfinished = true) : pos = i :=
  firing.inv.once i pos me hjob (firing.job_of_running hadded ht hflag)

/-- While the handler does not go back behind a slot, a slot ahead of it was ahead before. -/
theorem Due.ahead_of_mono (h : Due state me pos sec scan) (hscans : next.scans = state.scans)
    (hmono : state.handler.passed pos = true → next.handler.passed pos = true)
    (hnext : next.handler.passed pos = false) : scan < next.scans := by
  rw [hscans]
  apply h.ahead
  cases hold : state.handler.passed pos with
  | false => rfl
  | true => exact (hmono hold).symm.trans hnext

/-- A step that leaves the timer and the number of the scans, and that does not take
the handler past the slot of a timer that runs. -/
theorem Due.of_move (h : Due state me pos sec scan) (hscans : next.scans = state.scans)
    (htimer : next.timers[me]? = state.timers[me]?)
    (hfired : ∀ k, AtEntry.invoked me k ∈ next.log → AtEntry.invoked me k ∈ state.log)
    (hmono : state.handler.passed pos = true → next.handler.passed pos = true)
    (hpassed : ∀ timer, state.timers[me]? = some timer → timer.flag = .running →
      next.handler.passed pos = state.handler.passed pos) : Due next me pos sec scan := by
  refine ⟨by rw [hscans]; exact h.started, h.ahead_of_mono hscans hmono, ?_, ?_,
    fun k hk => h.fired k (hfired k hk)⟩
  · intro timer ht hflag
    rw [htimer] at ht
    have hvisits : next.visits pos scan = state.visits pos scan := by
      rw [AtState.visits, AtState.visits, hscans, hpassed timer ht hflag]
    rw [hvisits]
    exact h.running timer ht hflag
  · rw [hscans, AtState.flagOf, htimer]
    exact h.executing

/-- A step that takes the handler past a slot where the timer, if it runs, is not. -/
theorem Due.past_other {i : Nat} (h : Due state me pos sec scan)
    (hpc : state.handler = .scanning i) (hnext : next.handler.passed pos = decide (pos ≤ i))
    (hscans : next.scans = state.scans) (htimer : next.timers[me]? = state.timers[me]?)
    (hfired : ∀ k, AtEntry.invoked me k ∈ next.log → AtEntry.invoked me k ∈ state.log)
    (hne : ∀ timer, state.timers[me]? = some timer → timer.flag = .running → pos ≠ i) :
    Due next me pos sec scan := by
  refine h.of_move hscans htimer hfired ?_ ?_
  · rw [hpc, hnext]
    simp only [HandlerPc.passed, decide_eq_true_eq]
    omega
  · intro timer ht hflag
    have hpos := hne timer ht hflag
    rw [hpc, hnext]
    simp only [HandlerPc.passed, decide_eq_decide]
    omega

/-- A step that leaves the timer, the scans and the handler. -/
theorem Due.of_same (h : Due state me pos sec scan) (hscans : next.scans = state.scans)
    (hpc : next.handler = state.handler) (htimer : next.timers[me]? = state.timers[me]?)
    (hfired : ∀ k, AtEntry.invoked me k ∈ next.log → AtEntry.invoked me k ∈ state.log) :
    Due next me pos sec scan := by
  apply h.of_move hscans htimer hfired
  · rw [hpc]
    exact id
  · intro timer ht hflag
    rw [hpc]

/-- A timer that stops running, and does not start to execute, has nothing left. -/
theorem Due.of_stopped (h : Due state me pos sec scan) (hscans : next.scans = state.scans)
    (hmono : state.handler.passed pos = true → next.handler.passed pos = true)
    (hfired : ∀ k, AtEntry.invoked me k ∈ next.log → AtEntry.invoked me k ∈ state.log)
    {timer : TimerSt} (ht : next.timers[me]? = some timer)
    (hflag : timer.flag.unfinished = false) : Due next me pos sec scan := by
  refine ⟨by rw [hscans]; exact h.started, h.ahead_of_mono hscans hmono, ?_, ?_,
    fun k hk => h.fired k (hfired k hk)⟩
  · intro timer' ht' hrunning
    rw [ht] at ht'
    cases ht'
    rw [hrunning] at hflag
    cases hflag
  · rw [flagOf_eq ht]
    intro hexecuting
    rw [hexecuting] at hflag
    cases hflag

/-- The start of a scan. -/
theorem Due.scanStart (h : Due state me pos sec scan) (hpc : state.handler = .sleeping)
    (hexecuting : state.flagOf me ≠ .executing) (hscans : next.scans = state.scans + 1)
    (hpc' : next.handler = .scanning 0) (htimers : next.timers = state.timers)
    (hfired : ∀ k, AtEntry.invoked me k ∈ next.log → AtEntry.invoked me k ∈ state.log) :
    Due next me pos sec scan := by
  have hstarted := h.started
  have hvisits : next.visits pos scan = state.visits pos scan := by
    have hold : state.handler.passed pos = true := by rw [hpc]; rfl
    have hnew : next.handler.passed pos = false := by
      rw [hpc']
      exact decide_eq_false (Nat.not_lt_zero pos)
    rw [AtState.visits, AtState.visits, hold, hnew, hscans]
    simp only [if_true, Bool.false_eq_true, if_false]
    omega
  refine ⟨by omega, fun _ => by omega, ?_, ?_, fun k hk => h.fired k (hfired k hk)⟩
  · rw [htimers, hvisits]
    exact h.running
  · rw [flagOf_of_eq htimers]
    intro hflag
    exact absurd hflag hexecuting

/-- The scan takes a second off the timer, and another one is left. -/
theorem Due.count (h : Due state me pos sec scan) {timer : TimerSt}
    (hpc : state.handler = .scanning pos) (ht : state.timers[me]? = some timer)
    (hflag : timer.flag = .running) (hsec : ¬ timer.sec - 1 ≤ 0)
    (hscans : next.scans = state.scans) (hpc' : next.handler = .scanning (pos + 1))
    (ht' : next.timers[me]? = some { timer with sec := timer.sec - 1 })
    (hlog : next.log = state.log) : Due next me pos sec scan := by
  have hpassed : state.handler.passed pos = false := by
    rw [hpc]
    exact decide_eq_false (Nat.lt_irrefl pos)
  have hpassed' : next.handler.passed pos = true := by
    rw [hpc']
    exact decide_eq_true (Nat.lt_succ_self pos)
  have hstarted := h.ahead hpassed
  obtain ⟨hleft, hbound⟩ := h.running timer ht hflag
  have hvisits : next.visits pos scan = state.visits pos scan + 1 := by
    rw [AtState.visits, AtState.visits, hpassed, hpassed', hscans]
    simp only [if_true, Bool.false_eq_true, if_false]
    omega
  refine ⟨by rw [hscans]; exact h.started, ?_, ?_, ?_, ?_⟩
  · intro hnext
    rw [hpassed'] at hnext
    cases hnext
  · intro timer' htimer' _
    rw [ht'] at htimer'
    cases htimer'
    rw [hvisits]
    refine ⟨?_, Or.inr ?_⟩
    · push_cast
      omega
    · push_cast
      omega
  · rw [flagOf_eq ht']
    intro hexecuting
    exact absurd (hflag.symm.trans hexecuting) (by simp)
  · rw [hlog]
    exact h.fired

/-- The scan takes the last second off the timer: it is the one the timer is due in. -/
theorem Due.commit (h : Due state me pos sec scan) {timer changed : TimerSt}
    (hpc : state.handler = .scanning pos) (ht : state.timers[me]? = some timer)
    (hflag : timer.flag = .running) (hsec : timer.sec - 1 ≤ 0)
    (hscans : next.scans = state.scans) (ht' : next.timers[me]? = some changed)
    (hflag' : changed.flag = .executing)
    (hfired : ∀ k, AtEntry.invoked me k ∈ next.log → AtEntry.invoked me k ∈ state.log) :
    Due next me pos sec scan := by
  have hpassed : state.handler.passed pos = false := by
    rw [hpc]
    exact decide_eq_false (Nat.lt_irrefl pos)
  have hstarted := h.ahead hpassed
  obtain ⟨hleft, hbound⟩ := h.running timer ht hflag
  have hvisits : state.visits pos scan = state.scans - scan - 1 := by
    rw [AtState.visits, hpassed]
    simp
  refine ⟨by rw [hscans]; exact h.started, ?_, ?_, ?_, fun k hk => h.fired k (hfired k hk)⟩
  · intro _
    rw [hscans]
    exact hstarted
  · intro timer' htimer' hrunning
    rw [ht'] at htimer'
    cases htimer'
    rw [hflag'] at hrunning
    cases hrunning
  · intro _
    rw [hscans, dueScan]
    omega

end Due

/-! ## Every step keeps what is due -/

section Step

variable {state next : AtState} {me pos scan : Nat} {sec : Int}

theorem Firing.not_executing (firing : Firing state) (hpc : state.handler.callback = none) :
    state.flagOf me ≠ .executing := by
  intro hexecuting
  obtain ⟨i, hi⟩ := (firing.flags me).executing hexecuting
  rw [hpc] at hi
  cases hi

/-- The entries of a step about other things than an invocation. -/
theorem invoked_of_append {entries : List AtEntry}
    (h : ∀ k, AtEntry.invoked me k ∉ entries) (k : Nat)
    (hmem : AtEntry.invoked me k ∈ state.log ++ entries) : AtEntry.invoked me k ∈ state.log :=
  (List.mem_append.mp hmem).resolve_right (h k)

/-- The call of a callback: its timer is executing, so the scan is the one it is due in. -/
theorem Due.invoke {i own : Nat} (h : Due state me pos sec scan) (firing : Firing state)
    (hpc : state.handler = .committed i own) :
    Due ({ state with handler := .inCallback i own }.note [.invoked own state.scans]) me pos sec
      scan := by
  have hpassed : (HandlerPc.inCallback i own).passed pos = state.handler.passed pos := by
    rw [hpc]
    rfl
  refine ⟨h.started, ?_, ?_, h.executing, ?_⟩
  · intro hnext
    exact h.ahead (hpassed.symm.trans hnext)
  · intro timer ht hflag
    have hrunning := h.running timer ht hflag
    unfold AtState.visits at hrunning ⊢
    simp only [AtState.note, hpassed]
    exact hrunning
  · intro k hk
    rcases List.mem_append.mp hk with hold | hnew
    · exact h.fired k hold
    · rw [List.mem_singleton] at hnew
      cases hnew
      have hok := firing.inv.handler
      rw [hpc] at hok
      obtain ⟨_, timer, ht, hflag⟩ := hok
      exact h.executing ((flagOf_eq ht).trans hflag)

/-- Every step keeps what is due of the timers that were added before it. -/
theorem AtStep.due {event : AtEvent} (step : AtStep state event next) (firing : Firing state)
    (hadded : AtEntry.added me pos sec scan ∈ state.log) (h : Due state me pos sec scan) :
    Due next me pos sec scan := by
  -- a timer in the slot the handler looks at is the one that was added there
  have hslot : ∀ {i own : Nat} {timer : TimerSt}, state.job i = some own → me ≠ own →
      state.timers[me]? = some timer → timer.flag = .running → pos ≠ i := by
    rintro i own timer hjob hne ht hflag rfl
    have hme := firing.job_of_running hadded ht (by rw [hflag]; rfl)
    rw [hjob] at hme
    cases hme
    exact hne rfl
  cases step with
  | scan hpc =>
    exact h.scanStart hpc (firing.not_executing (by rw [hpc]; rfl)) rfl rfl rfl
      (invoked_of_append (by simp))
  | @skip i hpc hi hidle =>
    refine h.past_other hpc (passed_succ i) rfl rfl (fun k hk => hk) ?_
    rintro timer ht hflag rfl
    exact hidle me timer (firing.job_of_running hadded ht (by rw [hflag]; rfl)) ht hflag
  | @count i own timer hpc hi hjob ht hflag hsec =>
    rcases eq_or_ne me own with rfl | hne
    · obtain rfl := firing.pos_of_job hadded hjob ht (by rw [hflag]; rfl)
      exact h.count hpc ht hflag hsec rfl rfl ((getElem?_setTimer ht _ _).trans (if_pos rfl)) rfl
    · exact h.past_other hpc (passed_succ i) rfl ((getElem?_setTimer ht _ _).trans (if_neg hne))
        (fun k hk => hk) fun _ => hslot hjob hne
  | @commit i own timer hpc hi hjob ht hflag hsec =>
    rcases eq_or_ne me own with rfl | hne
    · obtain rfl := firing.pos_of_job hadded hjob ht (by rw [hflag]; rfl)
      exact h.commit hpc ht hflag hsec rfl ((getElem?_setTimer ht _ _).trans (if_pos rfl)) rfl
        (invoked_of_append (by simp))
    · exact h.past_other hpc rfl rfl ((getElem?_setTimer ht _ _).trans (if_neg hne))
        (invoked_of_append (by simp)) fun _ => hslot hjob hne
  | invoke hpc => exact h.invoke firing hpc
  | @callbackReturn i own timer hpc ht hflag =>
    rcases eq_or_ne me own with rfl | hne
    · refine h.of_stopped rfl ?_ (invoked_of_append (by simp))
        ((getElem?_setTimer ht _ _).trans (if_pos rfl)) rfl
      rw [hpc]
      exact fun hold => (passed_succ i).trans hold
    · have hpassed : (HandlerPc.scanning (i + 1)).passed pos = state.handler.passed pos := by
        rw [hpc]
        exact passed_succ i
      refine h.of_move rfl ((getElem?_setTimer ht _ _).trans (if_neg hne))
        (invoked_of_append (by simp)) ?_ ?_
      · intro hold
        exact hpassed.trans hold
      · intro _ _ _
        exact hpassed
  | @endScan i hpc hi =>
    refine h.of_move rfl rfl (invoked_of_append (by simp)) (fun _ => rfl) ?_
    intro timer ht hflag
    have hjob := firing.job_of_running hadded ht (by rw [hflag]; rfl)
    have hlt := (firing.inv.held pos me hjob).1
    rw [hpc]
    exact (decide_eq_true (by omega)).symm
  | add hsec hunlocked hpos =>
    refine h.of_same rfl rfl ?_ (invoked_of_append (by simp))
    exact List.getElem?_append_left (firing.lt_length_of_added hadded)
  | refuse hrefusal =>
    refine h.of_same rfl rfl rfl (invoked_of_append ?_)
    intro k hk
    rw [List.mem_singleton] at hk
    subst hk
    cases hrefusal
  | @cancel id slot own timer hjob ht hflag =>
    rcases eq_or_ne me own with rfl | hne
    · exact h.of_stopped rfl (fun hold => hold) (invoked_of_append (by simp))
        ((getElem?_setTimer ht _ _).trans (if_pos rfl)) rfl
    · exact h.of_same rfl rfl ((getElem?_setTimer ht _ _).trans (if_neg hne))
        (invoked_of_append (by simp))
  | wait hslot hjob ht halone => exact h.of_same rfl rfl rfl (invoked_of_append (by simp))
  | spurious hcall hstage => exact h.of_same rfl rfl rfl (fun k hk => hk)
  | resume hcall hstage ht halone => exact h.of_same rfl rfl rfl (fun k hk => hk)
  | clear hcall hstage hunlocked hjob => exact h.of_same rfl rfl rfl (fun k hk => hk)
  | @free index call timer hcall hstage ht hfreed =>
    rcases eq_or_ne me call.me with rfl | hne
    · obtain ⟨timer', ht', _, hfinal⟩ := (firing.inv.calls index call hcall).timer
      rw [ht] at ht'
      cases ht'
      exact h.of_stopped rfl (fun hold => hold) (invoked_of_append (by simp))
        ((getElem?_setTimer ht _ _).trans (if_pos rfl)) (hfinal (by rw [hstage]; rfl))
    · exact h.of_same rfl rfl ((getElem?_setTimer ht _ _).trans (if_neg hne))
        (invoked_of_append (by simp))

/-- A timer that has just been added behind the scan. -/
theorem due_of_added (hscans : next.scans = state.scans) (hpc : next.handler = state.handler)
    (htimers : next.timers = state.timers ++ [(⟨sec, .running, false⟩ : TimerSt)])
    (hlog : next.log = state.log ++ [.added state.timers.length pos sec state.scans])
    (hpassed : state.handler.passed pos = true) (hnever : ∀ k,
      AtEntry.invoked state.timers.length k ∉ state.log) :
    Due next state.timers.length pos sec state.scans := by
  have ht : next.timers[state.timers.length]? = some ⟨sec, .running, false⟩ := by
    rw [htimers, List.getElem?_append_right (Nat.le_refl _), Nat.sub_self]
    rfl
  have hvisits : next.visits pos state.scans = 0 := by
    rw [AtState.visits, hscans, Nat.sub_self, Nat.zero_sub]
  refine ⟨by rw [hscans], ?_, ?_, ?_, ?_⟩
  · intro hnext
    rw [hpc, hpassed] at hnext
    cases hnext
  · intro timer ht' _
    rw [ht] at ht'
    cases ht'
    rw [hvisits]
    exact ⟨(sub_zero sec).symm, Or.inl rfl⟩
  · rw [flagOf_eq ht]
    intro hexecuting
    cases hexecuting
  · intro k hk
    rw [hlog] at hk
    rcases List.mem_append.mp hk with hold | hnew
    · exact absurd hold (hnever k)
    · rw [List.mem_singleton] at hnew
      cases hnew

/-- The slot that an addition takes is behind the scan. -/
theorem passed_of_addsBehind (hsec : 0 ≤ sec) (hunlocked : state.jobUnlocked = true)
    (hpos : getFreePosUnlocked state = some pos)
    (hbehind : addsBehind state (.add sec true ⟨true, none⟩) = true) :
    state.handler.passed pos = true := by
  have htakes : takesSlot state (.add sec true ⟨true, none⟩) = some pos := by
    rw [takesSlot, if_pos ⟨hsec, rfl, rfl⟩, hpos]
  rw [addsBehind, htakes] at hbehind
  cases hpc : state.handler with
  | sleeping => rfl
  | scanning i =>
    rw [AtState.jobUnlocked, hpc] at hunlocked
    cases hunlocked
  | committed i own =>
    rw [hpc] at hbehind
    exact decide_eq_true (of_decide_eq_true hbehind).le
  | inCallback i own =>
    rw [hpc] at hbehind
    exact decide_eq_true (of_decide_eq_true hbehind).le

/-- Nothing is recorded of a timer that is not allocated. -/
theorem Firing.not_invoked (firing : Firing state) (k : Nat) :
    AtEntry.invoked state.timers.length k ∉ state.log := by
  intro hmem
  have hflag : state.flagOf state.timers.length = .running := by
    rw [AtState.flagOf, List.getElem?_eq_none_iff.mpr (Nat.le_refl _)]
    rfl
  have hinvoked := (firing.flags state.timers.length).invoked
  rw [hflag] at hinvoked
  have hpos : 0 < state.log.countP (AtEntry.invokes state.timers.length) :=
    List.countP_pos_iff.mpr ⟨_, hmem, decide_eq_true rfl⟩
  simp only [TimerFlag.commits] at hinvoked
  omega

theorem AtStep.scans_le {event : AtEvent} (step : AtStep state event next) :
    state.scans ≤ next.scans := by
  cases step with
  | scan hpc => exact Nat.le_succ _
  | _ => exact Nat.le_refl _

/-- At the end of the scan in which a timer is due, or a later one, it is finished. -/
theorem Scans.finished_of_end (scans : Scans state) {i : Nat} (hpc : state.handler = .scanning i)
    (hi : jobMax ≤ i) (hadded : AtEntry.added me pos sec scan ∈ state.log)
    (hdue : dueScan sec scan ≤ state.scans) : (state.flagOf me).unfinished = false := by
  have h := scans.due me pos sec scan hadded
  have ht : ∃ timer, state.timers[me]? = some timer :=
    ⟨_, List.getElem?_eq_getElem (scans.firing.lt_length_of_added hadded)⟩
  obtain ⟨timer, ht⟩ := ht
  cases hflag : state.flagOf me with
  | running =>
    exfalso
    have hrunning : timer.flag = .running := (flagOf_eq ht).symm.trans hflag
    have hjob := scans.firing.job_of_running hadded ht (by rw [hrunning]; rfl)
    have hpos := (scans.firing.inv.held pos me hjob).1
    obtain ⟨_, hbound⟩ := h.running timer ht hrunning
    have hvisits : state.visits pos scan = state.scans - scan := by
      have hpassed : state.handler.passed pos = true := by
        rw [hpc]
        exact decide_eq_true (by omega)
      rw [AtState.visits, if_pos hpassed, Nat.sub_zero]
    rw [hvisits] at hbound
    unfold dueScan at hdue
    omega
  | executing => exact absurd hflag (scans.firing.not_executing (by rw [hpc]; rfl))
  | «over» => rfl
  | canceled => rfl

/-- Every step that keeps the scans alike keeps what is due. -/
theorem Scans.step {event : AtEvent} (scans : Scans state) (step : AtStep state event next)
    (hbehind : addsBehind state event = true) : Scans next := by
  have hdue : ∀ (me pos : Nat) (sec : Int) (scan : Nat),
      AtEntry.added me pos sec scan ∈ next.log → Due next me pos sec scan := by
    intro me pos sec scan hadded
    rcases step.tells hadded with hold | ⟨_, rfl, rfl, hsec, hpos, hunlocked, rfl⟩
    · exact step.due scans.firing hold (scans.due me pos sec scan hold)
    · have hpassed := passed_of_addsBehind hsec hunlocked hpos hbehind
      cases step with
      | refuse hrefusal =>
        -- a refused call adds nothing
        have hold : AtEntry.added state.timers.length pos sec state.scans ∈ state.log := by
          refine (List.mem_append.mp hadded).resolve_right ?_
          cases hrefusal <;> simp
        exact absurd (scans.firing.lt_length_of_added hold) (Nat.lt_irrefl _)
      | add hsec' hunlocked' hpos' =>
        rw [hpos] at hpos'
        cases hpos'
        exact due_of_added rfl rfl rfl rfl hpassed scans.firing.not_invoked
  refine ⟨scans.firing.step step, hdue, ?_⟩
  intro k hk
  have hle := step.scans_le
  rcases step.tells hk with hold | ⟨rfl, rfl, i, hpc, hi⟩
  · obtain ⟨hk, hfinished⟩ := scans.ended k hold
    refine ⟨hk.trans hle, ?_⟩
    intro me pos sec scan hadded hscan
    rcases step.tells hadded with hbefore | ⟨_, _, rfl, _⟩
    · have hfinal := hfinished me pos sec scan hbefore hscan
      rw [step.flag_final hfinal]
      exact hfinal
    · unfold dueScan at hscan
      omega
  · refine ⟨hle, ?_⟩
    intro me pos sec scan hadded hscan
    rcases step.tells hadded with hbefore | ⟨_, _, _, _, _, _, hevent⟩
    · have hfinal := scans.finished_of_end hpc hi hbefore hscan
      rw [step.flag_final hfinal]
      exact hfinal
    · cases hevent

end Step

/-- A finished timer was cancelled or called back. -/
theorem Firing.canceled_or_invoked {state : AtState} (firing : Firing state) {me : Nat}
    (hfinal : (state.flagOf me).unfinished = false) :
    AtEntry.canceled me ∈ state.log ∨ ∃ k, AtEntry.invoked me k ∈ state.log := by
  have hpending : state.handler.pending me = false := by
    cases hpc : state.handler with
    | committed i own =>
      apply decide_eq_false
      rintro rfl
      have hok := firing.inv.handler
      rw [hpc] at hok
      obtain ⟨_, timer, ht, hexecuting⟩ := hok
      rw [flagOf_eq ht, hexecuting] at hfinal
      cases hfinal
    | _ => rfl
  have hinvoked := (firing.flags me).invoked
  rw [hpending] at hinvoked
  cases hflag : state.flagOf me with
  | running =>
    rw [hflag] at hfinal
    cases hfinal
  | executing =>
    rw [hflag] at hfinal
    cases hfinal
  | canceled =>
    left
    apply List.count_pos_iff.mp
    rw [(firing.flags me).canceled, if_pos hflag]
    exact Nat.one_pos
  | «over» =>
    right
    rw [hflag] at hinvoked
    have hpos : 0 < state.log.countP (AtEntry.invokes me) := by
      simp only [TimerFlag.commits, Bool.false_eq_true, if_false, Nat.add_zero] at hinvoked
      omega
    obtain ⟨entry, hmem, hinvokes⟩ := List.countP_pos_iff.mp hpos
    cases entry with
    | invoked own k =>
      cases of_decide_eq_true hinvokes
      exact ⟨k, hmem⟩
    | _ => cases hinvokes

/-! ## Over every run -/

/-- A run whose steps keep the scans alike. -/
def ScansAlike (events : List AtEvent) : Prop :=
  Meets atStep (fun state event => scansAlike state event = true) atInit events

instance (events : List AtEvent) : Decidable (ScansAlike events) :=
  inferInstanceAs (Decidable (Meets _ _ _ _))

theorem atRun_scans {events : List AtEvent} (h : ScansAlike events) :
    Scans (atRun atInit events) := by
  refine Meets.run_induction Scans ?_ h atInit_scans
  intro state event next scans halike hstep
  rw [scansAlike, Bool.and_eq_true] at halike
  exact scans.step (atStep_inv scans.firing.inv halike.1 hstep) halike.2

/-- Every timer fires in the scan it is due in and in no other: one that was added when
`scan` scans had started in the `max 1 sec`-th scan after that, unless it is cancelled
before that scan ends. -/
def FiresWhenDue (state : AtState) : Prop :=
  ∀ (me pos : Nat) (sec : Int) (scan : Nat), AtEntry.added me pos sec scan ∈ state.log →
    (∀ k, AtEntry.invoked me k ∈ state.log → k = dueScan sec scan) ∧
    state.log.countP (AtEntry.invokes me) ≤ 1 ∧
    ∀ k, AtEntry.scanEnded k ∈ state.log → dueScan sec scan ≤ k →
      AtEntry.canceled me ∈ state.log ∨ AtEntry.invoked me (dueScan sec scan) ∈ state.log

/-- As long as every call of `at_waittimer` leaves its loop alone and no timer that is
added during a callback gets a slot ahead of the scan, every timer fires when it is due. -/
theorem atRun_firesWhenDue (events : List AtEvent) (h : ScansAlike events) :
    FiresWhenDue (atRun atInit events) := by
  have scans := atRun_scans h
  intro me pos sec scan hadded
  have hdue := scans.due me pos sec scan hadded
  refine ⟨hdue.fired, scans.firing.fireExcludesCancel.once me, ?_⟩
  intro k hended hk
  have hfinal := (scans.ended k hended).2 me pos sec scan hadded hk
  rcases scans.firing.canceled_or_invoked hfinal with hcanceled | ⟨scan', hinvoked⟩
  · exact Or.inl hcanceled
  · right
    rw [← hdue.fired scan' hinvoked]
    exact hinvoked

/-- A timer of one second, and the whole scan that calls it back. -/
def firedInScan : List AtEvent :=
  [.add 1 true ⟨true, none⟩, .scan, .visit, .invoke, .callbackReturn] ++
    List.replicate (jobMax - 1) .visit ++ [.endScan]

theorem atRun_firesWhenDue_inScan : FiresWhenDue (atRun atInit firedInScan) :=
  atRun_firesWhenDue firedInScan (by decide +kernel)

/-- A callback that adds a timer of one second: the slot after its own is free. -/
def addedInCallback : List AtEvent :=
  [.add 1 true ⟨true, none⟩, .scan, .visit, .invoke, .add 1 true ⟨true, none⟩, .callbackReturn,
    .visit, .invoke]

/-- The scan in progress fires the timer that was added in its middle. -/
theorem atRun_addedInCallback_early :
    AtEntry.added 1 1 1 1 ∈ (atRun atInit addedInCallback).log ∧
      AtEntry.invoked 1 1 ∈ (atRun atInit addedInCallback).log ∧ dueScan 1 1 = 2 ∧
      ¬ FiresWhenDue (atRun atInit addedInCallback) := by
  have hadded : AtEntry.added 1 1 1 1 ∈ (atRun atInit addedInCallback).log := by
    decide +kernel
  have hinvoked : AtEntry.invoked 1 1 ∈ (atRun atInit addedInCallback).log := by
    decide +kernel
  refine ⟨hadded, hinvoked, rfl, ?_⟩
  intro h
  exact absurd ((h 1 1 1 1 hadded).1 1 hinvoked) (by decide)

end LearnApue.Para
