import LearnApue.Para.AnytimerSafety

set_option autoImplicit false

/-!
# When timers fire

The flag of a timer decides what was recorded about it: a timer is committed to once
when it starts to execute, called back once, and never when it was cancelled.  The
number of scans that have passed its slot since it was added decides how many seconds
are left.
-/

namespace LearnApue.Para

open LearnApue.Foundation LearnApue.Foundation.EventMachine

/-! ## Flags and what is recorded of them -/

/-- The flag of a timer; what is not allocated yet counts as running. -/
def AtState.flagOf (state : AtState) (me : Nat) : TimerFlag :=
  (state.timers[me]?).elim .running TimerSt.flag

/-- The callback is invoked. -/
def AtEntry.invokes (me : Nat) : AtEntry → Bool
  | .invoked own _ => decide (own = me)
  | _ => false

/-- The timer that the handler is about to call back. -/
def HandlerPc.pending (me : Nat) : HandlerPc → Bool
  | .committed _ own => decide (own = me)
  | _ => false

/-- The slot of the timer that the handler calls back. -/
def HandlerPc.callback : HandlerPc → Option (Nat × Nat)
  | .committed i me => some (i, me)
  | .inCallback i me => some (i, me)
  | _ => none

/-- How often the handler committed to a timer. -/
def TimerFlag.commits : TimerFlag → Nat
  | .running => 0
  | .executing => 1
  | .over => 1
  | .canceled => 0

/-- The entry is about the firing or the cancelling of this timer. -/
def AtEntry.about (me : Nat) : AtEntry → Bool
  | .committed own | .invoked own _ | .callbackReturned own | .canceled own => decide (own = me)
  | _ => false

/-- What the log says about each timer, given its flag. -/
structure FlagLog (state : AtState) (me : Nat) : Prop where
  committed : state.log.count (.committed me) = (state.flagOf me).commits
  invoked : state.log.countP (AtEntry.invokes me) + (if state.handler.pending me then 1 else 0) =
    (state.flagOf me).commits
  callbackReturned : state.log.count (.callbackReturned me) =
    if state.flagOf me = .over then 1 else 0
  canceled : state.log.count (.canceled me) = if state.flagOf me = .canceled then 1 else 0
  executing : state.flagOf me = .executing → ∃ i, state.handler.callback = some (i, me)

section Flags

variable {state next : AtState}

theorem flagOf_eq {me : Nat} {timer : TimerSt} (ht : state.timers[me]? = some timer) :
    state.flagOf me = timer.flag := by
  rw [AtState.flagOf, ht]
  rfl

theorem flagOf_of_eq (h : next.timers = state.timers) (me : Nat) :
    next.flagOf me = state.flagOf me := by
  rw [AtState.flagOf, AtState.flagOf, h]

/-- The flags after a timer has changed. -/
theorem flagOf_setTimer {me : Nat} {timer changed : TimerSt} {flag : TimerFlag}
    (ht : state.timers[me]? = some timer) (h : next.timers = state.timers.set me changed)
    (hflag : changed.flag = flag) (other : Nat) :
    next.flagOf other = if other = me then flag else state.flagOf other := by
  rw [AtState.flagOf, h, getElem?_setTimer ht, ← hflag]
  split
  · rfl
  · rfl

theorem flagOf_add {timer : TimerSt} (h : next.timers = state.timers ++ [timer])
    (hflag : timer.flag = .running) (me : Nat) : next.flagOf me = state.flagOf me := by
  unfold AtState.flagOf
  rw [h]
  rcases Nat.lt_trichotomy me state.timers.length with hlt | heq | hgt
  · rw [List.getElem?_append_left hlt]
  · rw [heq, List.getElem?_append_right (Nat.le_refl _), Nat.sub_self,
      List.getElem?_eq_none_iff.mpr (Nat.le_refl _)]
    exact hflag
  · have hlen : (state.timers ++ [timer]).length ≤ me := by
      rw [List.length_append]
      exact hgt
    rw [List.getElem?_eq_none_iff.mpr hlen, List.getElem?_eq_none_iff.mpr (by omega)]

/-- Entries about other things change none of the counts. -/
theorem counts_of_about {me : Nat} {entries : List AtEntry}
    (h : ∀ entry ∈ entries, entry.about me = false) :
    entries.count (.committed me) = 0 ∧ entries.countP (AtEntry.invokes me) = 0 ∧
      entries.count (.callbackReturned me) = 0 ∧ entries.count (.canceled me) = 0 := by
  have hnot : ∀ entry : AtEntry, entry.about me = true → entries.count entry = 0 := by
    intro entry habout
    apply List.count_eq_zero_of_not_mem
    intro hmem
    rw [h entry hmem] at habout
    cases habout
  refine ⟨hnot _ (decide_eq_true rfl), ?_, hnot _ (decide_eq_true rfl),
    hnot _ (decide_eq_true rfl)⟩
  rw [List.countP_eq_zero]
  intro entry hmem hinvokes
  have habout := h entry hmem
  cases entry with
  | invoked own scan => exact absurd (habout.symm.trans hinvokes) Bool.false_ne_true
  | _ => cases hinvokes

/-- A step that does not change the flag of this timer, records nothing about it, and
leaves the handler's call of it. -/
theorem FlagLog.of_same {me : Nat} (h : FlagLog state me)
    (hflag : next.flagOf me = state.flagOf me) {entries : List AtEntry}
    (hlog : next.log = state.log ++ entries) (habout : ∀ entry ∈ entries, entry.about me = false)
    (hpending : next.handler.pending me = state.handler.pending me)
    (hcallback : ∀ i, state.handler.callback = some (i, me) →
      next.handler.callback = some (i, me)) : FlagLog next me := by
  obtain ⟨hcommitted, hinvoked, hreturned, hcanceled⟩ := counts_of_about habout
  refine ⟨?_, ?_, ?_, ?_, ?_⟩
  · rw [hlog, List.count_append, hcommitted, hflag]
    exact h.committed
  · rw [hlog, List.countP_append, hinvoked, hflag, hpending]
    exact h.invoked
  · rw [hlog, List.count_append, hreturned, hflag]
    exact h.callbackReturned
  · rw [hlog, List.count_append, hcanceled, hflag]
    exact h.canceled
  · intro hexecuting
    obtain ⟨i, hi⟩ := h.executing (hflag.symm.trans hexecuting)
    exact ⟨i, hcallback i hi⟩

/-- A step that keeps the handler where it is and records nothing about firing. -/
theorem FlagLog.of_quiet {me : Nat} (h : FlagLog state me)
    (hflag : next.flagOf me = state.flagOf me) {entries : List AtEntry}
    (hlog : next.log = state.log ++ entries) (habout : ∀ entry ∈ entries, entry.about me = false)
    (hpc : next.handler = state.handler) : FlagLog next me := by
  refine h.of_same hflag hlog habout (by rw [hpc]) ?_
  intro i hi
  rw [hpc]
  exact hi

/-- A step between two places of the handler outside a callback. -/
theorem FlagLog.of_scan {me : Nat} (h : FlagLog state me)
    (hflag : next.flagOf me = state.flagOf me) {entries : List AtEntry}
    (hlog : next.log = state.log ++ entries) (habout : ∀ entry ∈ entries, entry.about me = false)
    (hpc : state.handler.callback = none) (hpc' : next.handler.callback = none) :
    FlagLog next me := by
  have hpending : ∀ pc : HandlerPc, pc.callback = none → pc.pending me = false := by
    intro pc hnone
    cases pc with
    | committed i own => cases hnone
    | _ => rfl
  refine h.of_same hflag hlog habout ?_ ?_
  · rw [hpending _ hpc, hpending _ hpc']
  · intro i hi
    rw [hpc] at hi
    cases hi

/-- The handler commits to a timer. -/
theorem FlagLog.commit {me own i : Nat} (h : FlagLog state me) (hpc : state.handler = .scanning i)
    (hrunning : state.flagOf own = .running)
    (hflag : ∀ other, next.flagOf other = if other = own then .executing else state.flagOf other)
    (hlog : next.log = state.log ++ [.committed own]) (hpc' : next.handler = .committed i own) :
    FlagLog next me := by
  rcases eq_or_ne me own with rfl | hne
  · have hflag' : next.flagOf me = .executing := (hflag me).trans (if_pos rfl)
    have hcommitted := h.committed
    have hinvoked := h.invoked
    have hreturned := h.callbackReturned
    have hcanceled := h.canceled
    rw [hrunning] at hcommitted hinvoked hreturned hcanceled
    refine ⟨?_, ?_, ?_, ?_, ?_⟩
    · rw [hlog, hflag', List.count_append, hcommitted]
      simp [TimerFlag.commits]
    · rw [hlog, hflag', List.countP_append, hpc']
      simp only [TimerFlag.commits, Nat.add_eq_zero_iff] at hinvoked
      simp [hinvoked.1, AtEntry.invokes, HandlerPc.pending, TimerFlag.commits]
    · rw [hlog, hflag', List.count_append, hreturned]
      simp
    · rw [hlog, hflag', List.count_append, hcanceled]
      simp
    · intro _
      exact ⟨i, by rw [hpc']; rfl⟩
  · refine h.of_same ((hflag me).trans (if_neg hne)) hlog ?_ ?_ ?_
    · simp [AtEntry.about, hne.symm]
    · rw [hpc, hpc']
      exact decide_eq_false hne.symm
    · rw [hpc]
      intro j hj
      cases hj

/-- The handler calls back the timer it has committed to. -/
theorem FlagLog.invoke {me own i scan : Nat} (h : FlagLog state me)
    (hpc : state.handler = .committed i own) (hflag : next.flagOf me = state.flagOf me)
    (hlog : next.log = state.log ++ [.invoked own scan])
    (hpc' : next.handler = .inCallback i own) : FlagLog next me := by
  rcases eq_or_ne me own with rfl | hne
  · refine ⟨?_, ?_, ?_, ?_, ?_⟩
    · rw [hlog, hflag, List.count_append, h.committed]
      simp
    · rw [hlog, hflag, List.countP_append, hpc', ← h.invoked, hpc]
      simp [AtEntry.invokes, HandlerPc.pending]
    · rw [hlog, hflag, List.count_append, h.callbackReturned]
      simp
    · rw [hlog, hflag, List.count_append, h.canceled]
      simp
    · intro _
      exact ⟨i, by rw [hpc']; rfl⟩
  · refine h.of_same hflag hlog ?_ ?_ ?_
    · simp [AtEntry.about, hne.symm]
    · rw [hpc, hpc']
      exact (decide_eq_false hne.symm).symm
    · rw [hpc, hpc']
      intro j hj
      exact hj

/-- The callback returns. -/
theorem FlagLog.callbackReturn {me own i : Nat} (h : FlagLog state me)
    (hpc : state.handler = .inCallback i own) (hexecuting : state.flagOf own = .executing)
    (hflag : ∀ other, next.flagOf other = if other = own then .over else state.flagOf other)
    (hlog : next.log = state.log ++ [.callbackReturned own])
    (hpc' : next.handler = .scanning (i + 1)) : FlagLog next me := by
  rcases eq_or_ne me own with rfl | hne
  · have hflag' : next.flagOf me = .over := (hflag me).trans (if_pos rfl)
    have hcommitted := h.committed
    have hinvoked := h.invoked
    have hreturned := h.callbackReturned
    have hcanceled := h.canceled
    rw [hexecuting] at hcommitted hinvoked hreturned hcanceled
    rw [hpc] at hinvoked
    refine ⟨?_, ?_, ?_, ?_, ?_⟩
    · rw [hlog, hflag', List.count_append, hcommitted]
      simp [TimerFlag.commits]
    · rw [hlog, hflag', List.countP_append, hpc']
      simp [AtEntry.invokes, HandlerPc.pending, TimerFlag.commits] at hinvoked ⊢
      exact hinvoked
    · rw [hlog, hflag', List.count_append, hreturned]
      simp
    · rw [hlog, hflag', List.count_append, hcanceled]
      simp
    · intro hover
      rw [hflag'] at hover
      cases hover
  · refine h.of_same ((hflag me).trans (if_neg hne)) hlog ?_ ?_ ?_
    · simp [AtEntry.about, hne.symm]
    · rw [hpc, hpc']
      rfl
    · rw [hpc]
      intro j hj
      cases hj
      exact absurd rfl hne

/-- A running timer is cancelled. -/
theorem FlagLog.cancel {me own : Nat} (h : FlagLog state me)
    (hrunning : state.flagOf own = .running)
    (hflag : ∀ other, next.flagOf other = if other = own then .canceled else state.flagOf other)
    (hlog : next.log = state.log ++ [.canceled own]) (hpc : next.handler = state.handler) :
    FlagLog next me := by
  rcases eq_or_ne me own with rfl | hne
  · have hflag' : next.flagOf me = .canceled := (hflag me).trans (if_pos rfl)
    have hcommitted := h.committed
    have hinvoked := h.invoked
    have hreturned := h.callbackReturned
    have hcanceled := h.canceled
    rw [hrunning] at hcommitted hinvoked hreturned hcanceled
    refine ⟨?_, ?_, ?_, ?_, ?_⟩
    · rw [hlog, hflag', List.count_append, hcommitted]
      simp [TimerFlag.commits]
    · rw [hlog, hflag', List.countP_append, hpc]
      simpa [AtEntry.invokes, TimerFlag.commits] using hinvoked
    · rw [hlog, hflag', List.count_append, hreturned]
      simp
    · rw [hlog, hflag', List.count_append, hcanceled]
      simp
    · intro hexecuting
      rw [hflag'] at hexecuting
      cases hexecuting
  · refine h.of_quiet ((hflag me).trans (if_neg hne)) hlog ?_ hpc
    simp [AtEntry.about, hne.symm]

/-- A refused call records nothing about firing. -/
theorem Refusal.about {entry : AtEntry} (h : Refusal state entry) (me : Nat) :
    entry.about me = false := by
  cases h <;> rfl

/-- Every step keeps the log in accord with the flags. -/
theorem AtStep.flagLog {event : AtEvent} (step : AtStep state event next) {me : Nat}
    (h : FlagLog state me) : FlagLog next me := by
  have nothing : ∀ entry ∈ ([] : List AtEntry), entry.about me = false := by simp
  cases step with
  | scan hpc =>
    exact h.of_scan (flagOf_of_eq rfl me) rfl (by simp [AtEntry.about]) (by rw [hpc]; rfl) rfl
  | skip hpc hi hidle =>
    exact h.of_scan (flagOf_of_eq rfl me) (List.append_nil _).symm nothing (by rw [hpc]; rfl) rfl
  | @count i own timer hpc hi hjob ht hflag hsec =>
    refine h.of_scan ?_ (List.append_nil _).symm nothing (by rw [hpc]; rfl) rfl
    rw [flagOf_setTimer ht rfl rfl]
    split
    · rename_i hme
      rw [hme, flagOf_eq ht]
    · rfl
  | commit hpc hi hjob ht hflag hsec =>
    exact h.commit hpc ((flagOf_eq ht).trans hflag) (flagOf_setTimer ht rfl rfl) rfl rfl
  | invoke hpc => exact h.invoke hpc (flagOf_of_eq rfl me) rfl rfl
  | callbackReturn hpc ht hflag =>
    exact h.callbackReturn hpc ((flagOf_eq ht).trans hflag) (flagOf_setTimer ht rfl rfl) rfl rfl
  | endScan hpc hi =>
    exact h.of_scan (flagOf_of_eq rfl me) rfl (by simp [AtEntry.about]) (by rw [hpc]; rfl) rfl
  | add hsec hunlocked hpos =>
    exact h.of_quiet (flagOf_add rfl rfl me) rfl (by simp [AtEntry.about]) rfl
  | refuse hrefusal =>
    exact h.of_quiet (flagOf_of_eq rfl me) rfl (by simpa using hrefusal.about me) rfl
  | cancel hjob ht hflag =>
    exact h.cancel ((flagOf_eq ht).trans hflag) (flagOf_setTimer ht rfl rfl) rfl rfl
  | wait hslot hjob ht halone =>
    exact h.of_quiet (flagOf_of_eq rfl me) rfl (by simp [AtEntry.about]) rfl
  | spurious hcall hstage =>
    exact h.of_quiet (flagOf_of_eq rfl me) (List.append_nil _).symm nothing rfl
  | resume hcall hstage ht halone =>
    exact h.of_quiet (flagOf_of_eq rfl me) (List.append_nil _).symm nothing rfl
  | clear hcall hstage hunlocked hjob =>
    exact h.of_quiet (flagOf_of_eq rfl me) (List.append_nil _).symm nothing rfl
  | @free index call timer hcall hstage ht hfreed =>
    refine h.of_quiet ?_ rfl (by simp [AtEntry.about]) rfl
    rw [flagOf_setTimer ht rfl rfl]
    split
    · rename_i hme
      rw [hme, flagOf_eq ht]
    · rfl

/-- No timer leaves the flags over and canceled. -/
theorem AtStep.flag_final {event : AtEvent} (step : AtStep state event next) {me : Nat}
    (h : (state.flagOf me).unfinished = false) : next.flagOf me = state.flagOf me := by
  have final : ∀ {own : Nat} {timer changed : TimerSt}, state.timers[own]? = some timer →
      next.timers = state.timers.set own changed →
      timer.flag.unfinished = true ∨ changed.flag = timer.flag →
      next.flagOf me = state.flagOf me := by
    intro own timer changed ht hset hflag
    rw [flagOf_setTimer ht hset rfl]
    split
    · rename_i hme
      rw [hme, flagOf_eq ht] at h ⊢
      rcases hflag with hflag | hflag
      · rw [hflag] at h
        cases h
      · exact hflag
    · rfl
  cases step with
  | scan hpc => exact flagOf_of_eq rfl me
  | skip hpc hi hidle => exact flagOf_of_eq rfl me
  | count hpc hi hjob ht hflag hsec => exact final ht rfl (Or.inr rfl)
  | commit hpc hi hjob ht hflag hsec => exact final ht rfl (Or.inl (by rw [hflag]; rfl))
  | invoke hpc => exact flagOf_of_eq rfl me
  | callbackReturn hpc ht hflag => exact final ht rfl (Or.inl (by rw [hflag]; rfl))
  | endScan hpc hi => exact flagOf_of_eq rfl me
  | add hsec hunlocked hpos => exact flagOf_add rfl rfl me
  | refuse hrefusal => exact flagOf_of_eq rfl me
  | cancel hjob ht hflag => exact final ht rfl (Or.inl (by rw [hflag]; rfl))
  | wait hslot hjob ht halone => exact flagOf_of_eq rfl me
  | spurious hcall hstage => exact flagOf_of_eq rfl me
  | resume hcall hstage ht halone => exact flagOf_of_eq rfl me
  | clear hcall hstage hunlocked hjob => exact flagOf_of_eq rfl me
  | free hcall hstage ht hfreed => exact final ht rfl (Or.inr rfl)

/-- What an entry needs in its past: a cancellation fails as busy after the handler
has committed to the timer, and a wait returns after the callback has returned or the
timer was cancelled. -/
def Follows (before : List AtEntry) : AtEntry → Prop
  | .cancelFailed (some me) .ebusy => before.count (.committed me) = 1
  | .waitReturned me => AtEntry.callbackReturned me ∈ before ∨ AtEntry.canceled me ∈ before
  | _ => True

theorem Refusal.follows {entry : AtEntry} (h : Refusal state entry)
    (hflags : ∀ me, FlagLog state me) : Follows state.log entry := by
  cases h with
  | addFailed error => trivial
  | waitFailed error => trivial
  | cancelFailed error => trivial
  | canceled me => trivial
  | @busy me timer ht hflag =>
    show state.log.count (.committed me) = 1
    rw [(hflags me).committed, flagOf_eq ht]
    rcases hflag with hflag | hflag
    · rw [hflag]
      rfl
    · rw [hflag]
      rfl

/-- A finished timer was called back or cancelled. -/
theorem FlagLog.finished {me : Nat} (h : FlagLog state me)
    (hfinal : (state.flagOf me).unfinished = false) :
    AtEntry.callbackReturned me ∈ state.log ∨ AtEntry.canceled me ∈ state.log := by
  cases hflag : state.flagOf me with
  | running =>
    rw [hflag] at hfinal
    cases hfinal
  | executing =>
    rw [hflag] at hfinal
    cases hfinal
  | «over» =>
    left
    apply List.count_pos_iff.mp
    rw [h.callbackReturned, if_pos hflag]
    exact Nat.one_pos
  | canceled =>
    right
    apply List.count_pos_iff.mp
    rw [h.canceled, if_pos hflag]
    exact Nat.one_pos

/-- Every step records what follows from the past. -/
theorem AtStep.justified {event : AtEvent} (step : AtStep state event next) (inv : AtInv state)
    (hflags : ∀ me, FlagLog state me) (h : Justified Follows state.log) :
    Justified Follows next.log := by
  cases step with
  | scan hpc => exact h.concat trivial
  | skip hpc hi hidle => exact h
  | count hpc hi hjob ht hflag hsec => exact h
  | commit hpc hi hjob ht hflag hsec => exact h.concat trivial
  | invoke hpc => exact h.concat trivial
  | callbackReturn hpc ht hflag => exact h.concat trivial
  | endScan hpc hi => exact h.concat trivial
  | add hsec hunlocked hpos => exact h.concat trivial
  | refuse hrefusal => exact h.concat (hrefusal.follows hflags)
  | cancel hjob ht hflag => exact h.concat trivial
  | wait hslot hjob ht halone => exact h.concat trivial
  | spurious hcall hstage => exact h
  | resume hcall hstage ht halone => exact h
  | clear hcall hstage hunlocked hjob => exact h
  | @free index call timer hcall hstage ht hfreed =>
    obtain ⟨timer', ht', _, hfinal⟩ := (inv.calls index call hcall).timer
    have hflag : (state.flagOf call.me).unfinished = false := by
      rw [flagOf_eq ht']
      exact hfinal (by rw [hstage]; rfl)
    have hfreed : Justified Follows (state.log ++ [.freed call.me]) := h.concat trivial
    have hboth : Justified Follows ((state.log ++ [.freed call.me]) ++ [.waitReturned call.me]) := by
      apply hfreed.concat
      rcases (hflags call.me).finished hflag with hmem | hmem
      · exact Or.inl (List.mem_append_left _ hmem)
      · exact Or.inr (List.mem_append_left _ hmem)
    rw [List.append_assoc] at hboth
    exact hboth

end Flags

/-! ## Runs in which every call leaves its loop alone -/

/-- What holds after every run in which each call of `at_waittimer` leaves its loop
alone. -/
structure Firing (state : AtState) : Prop where
  inv : AtInv state
  ledger : AtLedger state
  flags : ∀ me, FlagLog state me
  follows : Justified Follows state.log

theorem atInit_firing : Firing atInit := by
  refine ⟨atInit_inv, ⟨fun me => rfl, ?_⟩, ?_, justified_nil _⟩
  · intro me pos sec scan hadded
    cases hadded
  · intro me
    refine ⟨rfl, rfl, rfl, rfl, ?_⟩
    intro hexecuting
    cases hexecuting

theorem Firing.step {state next : AtState} {event : AtEvent} (firing : Firing state)
    (step : AtStep state event next) : Firing next :=
  ⟨step.inv firing.inv, firing.ledger.step step, fun me => step.flagLog (firing.flags me),
    step.justified firing.inv firing.flags firing.follows⟩

theorem atRun_firing {state : AtState} (firing : Firing state) {events : List AtEvent}
    (h : Meets atStep (fun state event => leavesAlone state event = true) state events) :
    Firing (atRun state events) := by
  refine Meets.run_induction Firing ?_ h firing
  intro state event next hfiring halone hstep
  exact hfiring.step (atStep_inv hfiring.inv halone hstep)

/-- A finished timer keeps its flag for the rest of the run. -/
theorem atRun_flag_final {state : AtState} (firing : Firing state) {events : List AtEvent}
    (h : Meets atStep (fun state event => leavesAlone state event = true) state events) {me : Nat}
    (hfinal : (state.flagOf me).unfinished = false) :
    (atRun state events).flagOf me = state.flagOf me := by
  have hboth := Meets.run_induction
    (fun later => Firing later ∧ later.flagOf me = state.flagOf me) ?_ h ⟨firing, rfl⟩
  · exact hboth.2
  · intro later event next hlater halone hstep
    obtain ⟨hfiring, hsame⟩ := hlater
    have step := atStep_inv hfiring.inv halone hstep
    refine ⟨hfiring.step step, ?_⟩
    rw [step.flag_final (by rw [hsame]; exact hfinal), hsame]

/-! ## One waiter for each timer -/

/-- A call of `at_waittimer` enters a timer only when no call has entered it before. -/
def singleWaiter (state : AtState) : AtEvent → Bool
  | .wait id =>
      match (slotOf id).bind state.job with
      | none => true
      | some me => !state.waits.any fun call => decide (call.me = me)
  | _ => true

/-- At most one call of `at_waittimer` for each timer. -/
def SingleWaiter (events : List AtEvent) : Prop :=
  Meets atStep (fun state event => singleWaiter state event = true) atInit events

instance (events : List AtEvent) : Decidable (SingleWaiter events) :=
  inferInstanceAs (Decidable (Meets _ _ _ _))

/-- No two calls are on the same timer. -/
def Distinct (state : AtState) : Prop :=
  ∀ (c d : Nat) (call other : WaitCall), state.waits[c]? = some call →
    state.waits[d]? = some other → other.me = call.me → d = c

section SingleWaiter

variable {state next : AtState}

theorem Distinct.of_same (h : Distinct state)
    (hsame : ∀ (c : Nat) (call' : WaitCall), next.waits[c]? = some call' →
      ∃ call, state.waits[c]? = some call ∧ call'.me = call.me) : Distinct next := by
  intro c d call' other' hcall' hother' hme
  obtain ⟨call, hcall, hsame₁⟩ := hsame c call' hcall'
  obtain ⟨other, hother, hsame₂⟩ := hsame d other' hother'
  exact h c d call other hcall hother (by rw [← hsame₂, hme, hsame₁])

theorem Distinct.of_setStage (h : Distinct state) {index : Nat} {call : WaitCall}
    (hcall : state.waits[index]? = some call) {stage : WaitStage}
    (hwaits : next.waits = state.waits.set index { call with stage := stage }) :
    Distinct next := by
  apply h.of_same
  intro c call' hcall'
  rw [hwaits, getElem?_setStage hcall] at hcall'
  split at hcall'
  · rename_i hc
    cases hcall'
    exact ⟨call, by rw [hc, hcall], rfl⟩
  · exact ⟨call', hcall', rfl⟩

theorem Distinct.of_wake (h : Distinct state) {me : Nat}
    (hwaits : next.waits = state.waits.map (WaitCall.wake me)) : Distinct next := by
  apply h.of_same
  intro c call' hcall'
  obtain ⟨call, hcall, same⟩ := same_of_wake hwaits c call' hcall'
  exact ⟨call, hcall, same.me⟩

/-- With one waiter for each timer no two calls get onto the same timer. -/
theorem AtStep.distinct {event : AtEvent} (step : AtStep state event next)
    (hsingle : singleWaiter state event = true) (h : Distinct state) : Distinct next := by
  cases step with
  | scan hpc => exact h
  | skip hpc hi hidle => exact h
  | count hpc hi hjob ht hflag hsec => exact h
  | commit hpc hi hjob ht hflag hsec => exact h
  | invoke hpc => exact h
  | callbackReturn hpc ht hflag => exact h.of_wake rfl
  | endScan hpc hi => exact h
  | add hsec hunlocked hpos => exact h
  | refuse hrefusal => exact h
  | cancel hjob ht hflag => exact h.of_wake rfl
  | spurious hcall hstage => exact h.of_setStage hcall rfl
  | resume hcall hstage ht halone => exact h.of_setStage hcall rfl
  | clear hcall hstage hunlocked hjob => exact h.of_setStage hcall rfl
  | free hcall hstage ht hfreed => exact h.of_setStage hcall rfl
  | @wait id slot me timer hslot hjob ht halone =>
    have hnobody : ∀ (d : Nat) (other : WaitCall), state.waits[d]? = some other →
        other.me ≠ me := by
      intro d other hother hme
      simp only [singleWaiter, hslot, Option.bind_some, hjob, Bool.not_eq_true',
        List.any_eq_false, decide_eq_true_eq] at hsingle
      exact hsingle other (List.mem_of_getElem? hother) hme
    intro c d call other hcall hother hme
    have hsplit : ∀ (e : Nat) (one : WaitCall),
        (state.waits ++ [(⟨slot, me, waitTest timer⟩ : WaitCall)])[e]? = some one →
        state.waits[e]? = some one ∨ (e = state.waits.length ∧ one.me = me) := by
      intro e one hone
      rcases Nat.lt_or_ge e state.waits.length with hlt | hge
      · rw [List.getElem?_append_left hlt] at hone
        exact Or.inl hone
      · rw [List.getElem?_append_right hge, List.getElem?_singleton] at hone
        split at hone
        · cases hone
          exact Or.inr ⟨by omega, rfl⟩
        · cases hone
    rcases hsplit c call hcall with hcall' | ⟨hc, hcme⟩
    · rcases hsplit d other hother with hother' | ⟨hd, hdme⟩
      · exact h c d call other hcall' hother' hme
      · exact absurd (hme.symm.trans hdme) (hnobody c call hcall')
    · rcases hsplit d other hother with hother' | ⟨hd, hdme⟩
      · exact absurd (hme.trans hcme) (hnobody d other hother')
      · rw [hc, hd]

/-- With one waiter for each timer every call leaves its loop alone. -/
theorem leavesAlone_of_singleWaiter {event : AtEvent} (h : Distinct state)
    (hsingle : singleWaiter state event = true) : leavesAlone state event = true := by
  have habsent : ∀ index me, (∀ (d : Nat) (other : WaitCall), state.waits[d]? = some other →
      other.me = me → d = index) →
      (state.waits.eraseIdx index).any (WaitCall.inside me) = false := by
    intro index me hunique
    rw [List.any_eq_false]
    intro other hmem hinside
    obtain ⟨d, hne, hother⟩ := List.mem_eraseIdx_iff_getElem?.mp hmem
    apply hne
    apply hunique d other hother
    simp only [WaitCall.inside, Bool.and_eq_true, decide_eq_true_eq] at hinside
    exact hinside.1
  unfold leavesAlone
  cases htester : state.tester event with
  | none => rfl
  | some tested =>
    obtain ⟨index, me⟩ := tested
    have hunique : ∀ (d : Nat) (other : WaitCall), state.waits[d]? = some other →
        other.me = me → d = index := by
      intro d other hother hme
      cases event with
      | wait id =>
        cases hslot : slotOf id with
        | none => simp [AtState.tester, hslot] at htester
        | some slot =>
          cases hjob : state.job slot with
          | none => simp [AtState.tester, hslot, hjob] at htester
          | some own =>
            simp only [AtState.tester, hslot, Option.bind_some, hjob, Option.map_some,
              Option.some.injEq, Prod.mk.injEq] at htester
            simp only [singleWaiter, hslot, Option.bind_some, hjob, Bool.not_eq_true',
              List.any_eq_false, decide_eq_true_eq] at hsingle
            exact absurd (hme.trans htester.2.symm) (hsingle other (List.mem_of_getElem? hother))
      | resume place =>
        cases hcall : state.waits[place]? with
        | none => simp [AtState.tester, hcall] at htester
        | some call =>
          simp only [AtState.tester, hcall, Option.map_some, Option.some.injEq,
            Prod.mk.injEq] at htester
          rw [← htester.1]
          exact h place d call other hcall hother (hme.trans htester.2.symm)
      | _ => cases htester
    simp only [habsent index me hunique, Bool.not_false, Bool.or_true]

end SingleWaiter

theorem leftAlone_of_singleWaiter {events : List AtEvent} (h : SingleWaiter events) :
    LeftAlone events := by
  refine Meets.of_inv (fun state => AtInv state ∧ Distinct state) ?_ h ⟨atInit_inv, ?_⟩
  · intro state event next hinv hsingle hstep
    obtain ⟨inv, hdistinct⟩ := hinv
    have halone := leavesAlone_of_singleWaiter hdistinct hsingle
    have step := atStep_inv inv halone hstep
    exact ⟨halone, step.inv inv, step.distinct hsingle hdistinct⟩
  · intro c d call other hcall
    cases hcall

/-- Firing and cancelling exclude each other: a callback is invoked at most once, and
not at all when the timer was cancelled; a cancellation that fails as busy comes after
the one commitment of the handler to call back, and the callback has been invoked once
or is about to be; and a wait returns after the callback or the cancellation. -/
structure FireExcludesCancel (state : AtState) : Prop where
  once : ∀ me, state.log.countP (AtEntry.invokes me) ≤ 1
  canceled : ∀ me, AtEntry.canceled me ∈ state.log → state.log.countP (AtEntry.invokes me) = 0
  busy : ∀ me before after, state.log = before ++ .cancelFailed (some me) .ebusy :: after →
    before.count (.committed me) = 1 ∧ state.log.count (.committed me) = 1 ∧
      state.log.countP (AtEntry.invokes me) + (if state.handler.pending me then 1 else 0) = 1
  waited : ∀ me before after, state.log = before ++ .waitReturned me :: after →
    AtEntry.callbackReturned me ∈ before ∨ AtEntry.canceled me ∈ before

theorem Firing.fireExcludesCancel {state : AtState} (firing : Firing state) :
    FireExcludesCancel state := by
  have hle : ∀ flag : TimerFlag, flag.commits ≤ 1 := by
    intro flag
    cases flag <;> simp [TimerFlag.commits]
  refine ⟨?_, ?_, ?_, ?_⟩
  · intro me
    have hinvoked := (firing.flags me).invoked
    have hcommits := hle (state.flagOf me)
    omega
  · intro me hmem
    have hpos := List.count_pos_iff.mpr hmem
    rw [(firing.flags me).canceled] at hpos
    split at hpos
    · rename_i hflag
      have hinvoked := (firing.flags me).invoked
      rw [hflag] at hinvoked
      exact (Nat.add_eq_zero_iff.mp hinvoked).1
    · exact absurd hpos (Nat.lt_irrefl 0)
  · intro me before after hlog
    have hbefore : before.count (.committed me) = 1 := firing.follows before _ after hlog
    have hcommitted := (firing.flags me).committed
    have hcommits := hle (state.flagOf me)
    have hsub : before.count (.committed me) ≤ state.log.count (.committed me) := by
      rw [hlog, List.count_append]
      exact Nat.le_add_right _ _
    have hone : state.log.count (.committed me) = 1 := by omega
    refine ⟨hbefore, hone, ?_⟩
    rw [(firing.flags me).invoked, ← hcommitted, hone]
  · intro me before after hlog
    exact firing.follows before _ after hlog

/-- With at most one waiter for each timer, firing and cancelling exclude each other in
every run, and a timer that is over or cancelled stays so. -/
theorem atRun_fireExcludesCancel (events : List AtEvent) (h : SingleWaiter events) :
    FireExcludesCancel (atRun atInit events) ∧
      ∀ before after me, events = before ++ after →
        ((atRun atInit before).flagOf me).unfinished = false →
        (atRun atInit events).flagOf me = (atRun atInit before).flagOf me := by
  have halone := leftAlone_of_singleWaiter h
  refine ⟨(atRun_firing atInit_firing halone).fireExcludesCancel, ?_⟩
  rintro before after me rfl hfinal
  obtain ⟨hbefore, hafter⟩ := meets_append.mp halone
  unfold atRun
  rw [run_append]
  exact atRun_flag_final (atRun_firing atInit_firing hbefore) hafter hfinal

/-- A timer is cancelled in vain while its callback runs, another one in time. -/
def cancelledTwice : List AtEvent :=
  [.add 1 true ⟨true, none⟩, .add 5 true ⟨true, none⟩, .wait 0, .scan, .visit, .invoke, .cancel 0,
    .cancel 1, .callbackReturn, .visit, .resume 0]

theorem atRun_fireExcludesCancel_twice :
    FireExcludesCancel (atRun atInit cancelledTwice) ∧
      ∀ before after me, cancelledTwice = before ++ after →
        ((atRun atInit before).flagOf me).unfinished = false →
        (atRun atInit cancelledTwice).flagOf me = (atRun atInit before).flagOf me :=
  atRun_fireExcludesCancel cancelledTwice (by decide +kernel)

end LearnApue.Para
