import LearnApue.Para.Anytimer

set_option autoImplicit false

/-!
# Timers are freed once, by their own waiter

`at_waittimer` drops every lock between its loop and the clearing of the slot, and
clears and frees without looking again.  As long as no other call is inside the same
timer when a call leaves its loop, the slot still holds the timer when it is cleared
and nobody touches the timer after it is freed (`AtInv`).  `AtStep` is what a step
does under the invariant; the other results about timers start from it.

The proof goes in three rounds over the steps.  Under the invariant every accepted step is
one of `AtStep`, which says all that the step has found and done, so that the functions of
the code are not unfolded again (`atStep_inv`).  Every such step keeps the invariant
(`AtStep.inv`): most change neither the table nor the calls (`AtInv.of_same`), and the
others are an addition, a test of a flag, a clearing and a freeing.  And every such step
keeps what the log says about the memory and the table (`AtLedger.step`).

Without the condition two calls on one timer may leave their loops, and the second one
clears and frees what is no longer its own (`atRun_twoWaiters_unsafe`).
-/

namespace LearnApue.Para

open LearnApue.Foundation LearnApue.Foundation.EventMachine

/-! ## Leaving the loop -/

/-- The call is on this timer and has not returned. -/
def WaitCall.inside (me : Nat) (call : WaitCall) : Bool :=
  decide (call.me = me) && decide (call.stage ≠ .returned)

/-- The timer is over or cancelled. -/
def AtState.finished (state : AtState) (me : Nat) : Bool :=
  (state.timers[me]?).any fun timer => !timer.flag.unfinished

/-- The call that tests the flag of its timer, and the timer: a new call, which will be the
last of the list, or one that wakes. -/
def AtState.tester (state : AtState) : AtEvent → Option (Nat × Nat)
  | .wait id =>
      (slotOf id).bind fun slot => (state.job slot).map fun me => (state.waits.length, me)
  | .resume index => (state.waits[index]?).map fun call => (index, call.me)
  | _ => none

/-- A call leaves the loop of `at_waittimer` only when no other call is inside the
same timer. -/
def leavesAlone (state : AtState) (event : AtEvent) : Bool :=
  match state.tester event with
  | none => true
  | some (index, me) =>
      !state.finished me || !(state.waits.eraseIdx index).any (WaitCall.inside me)

/-! ## The invariant -/

/-- The slot of the call still holds its timer. -/
def WaitStage.holds : WaitStage → Bool
  | .waiting | .woken | .released => true
  | .cleared | .returned => false

/-- The call has left its loop. -/
def WaitStage.left : WaitStage → Bool
  | .waiting | .woken => false
  | .released | .cleared | .returned => true

/-- Where the timer of a call is, and what its flag and its memory are. -/
structure CallOk (state : AtState) (call : WaitCall) : Prop where
  /-- Until the call clears the slot, the slot is that of its timer. -/
  slot : call.stage.holds = true → state.job call.slot = some call.me
  /-- From then on the timer is in no slot. -/
  gone : call.stage.holds = false → ∀ i, state.job i ≠ some call.me
  /-- The call frees the timer when it returns, and has left its loop for a finished one. -/
  timer : ∃ timer, state.timers[call.me]? = some timer ∧
    (timer.freed = true ↔ call.stage = .returned) ∧
    (call.stage.left = true → timer.flag.unfinished = false)

/-- The handler calls back a timer that is in its slot and is executing, so no waiter can
have left its loop for it. -/
def HandlerOk (state : AtState) : HandlerPc → Prop
  | .sleeping => True
  | .scanning _ => True
  | .committed i me => state.job i = some me ∧
      ∃ timer, state.timers[me]? = some timer ∧ timer.flag = .executing
  | .inCallback i me => state.job i = some me ∧
      ∃ timer, state.timers[me]? = some timer ∧ timer.flag = .executing

/-- The invariant of the runs in which every call leaves its loop alone. -/
structure AtInv (state : AtState) : Prop where
  /-- The table holds timers that are not freed. -/
  held : ∀ i me, state.job i = some me →
    i < jobMax ∧ ∃ timer, state.timers[me]? = some timer ∧ timer.freed = false
  /-- A timer is in one slot. -/
  once : ∀ i j me, state.job i = some me → state.job j = some me → j = i
  calls : ∀ (c : Nat) (call : WaitCall), state.waits[c]? = some call → CallOk state call
  /-- A call that has left its loop is the only one on its timer. -/
  alone : ∀ (c d : Nat) (call other : WaitCall), state.waits[c]? = some call → state.waits[d]? = some other →
    other.me = call.me → call.stage.left = true → d = c
  handler : HandlerOk state state.handler
  clean : state.violations = []

theorem atInit_inv : AtInv atInit := by
  refine ⟨?_, ?_, ?_, ?_, trivial, rfl⟩
  · intro i me h
    cases h
  · intro i j me h
    cases h
  · intro c call h
    cases h
  · intro c d call other h
    cases h

/-! ## What a step does -/

/-- What is recorded when a call is refused. -/
inductive Refusal (state : AtState) : AtEntry → Prop where
  | addFailed (error : AtError) : Refusal state (.addFailed error)
  | waitFailed (error : AtError) : Refusal state (.waitFailed error)
  | cancelFailed (error : AtError) : Refusal state (.cancelFailed none error)
  | canceled (me : Nat) : Refusal state (.cancelFailed (some me) .ecanceled)
  | busy {me : Nat} {timer : TimerSt} (ht : state.timers[me]? = some timer)
      (hflag : timer.flag = .over ∨ timer.flag = .executing) :
      Refusal state (.cancelFailed (some me) .ebusy)

/-- What an accepted step does when the invariant holds and the call that leaves its
loop is alone. -/
inductive AtStep (state : AtState) : AtEvent → AtState → Prop where
  /-- The handler wakes and starts at the first slot. -/
  | scan (hpc : state.handler = .sleeping) :
      AtStep state .scan ({ state with handler := .scanning 0, scans := state.scans + 1 }.note
        [.scanStarted (state.scans + 1)])
  /-- A slot without a running timer. -/
  | skip {i : Nat} (hpc : state.handler = .scanning i) (hi : i < jobMax)
      (hidle : ∀ me timer, state.job i = some me → state.timers[me]? = some timer →
        timer.flag ≠ .running) :
      AtStep state .visit { state with handler := .scanning (i + 1) }
  /-- A timer that is not due yet. -/
  | count {i me : Nat} {timer : TimerSt} (hpc : state.handler = .scanning i) (hi : i < jobMax)
      (hjob : state.job i = some me) (ht : state.timers[me]? = some timer)
      (hflag : timer.flag = .running) (hsec : ¬ timer.sec - 1 ≤ 0) :
      AtStep state .visit ({ state with handler := .scanning (i + 1) }.setTimer me
        { timer with sec := timer.sec - 1 })
  /-- A timer that is due: its flag says so before the lock is dropped. -/
  | commit {i me : Nat} {timer : TimerSt} (hpc : state.handler = .scanning i) (hi : i < jobMax)
      (hjob : state.job i = some me) (ht : state.timers[me]? = some timer)
      (hflag : timer.flag = .running) (hsec : timer.sec - 1 ≤ 0) :
      AtStep state .visit (({ state with handler := .committed i me }.setTimer me
        { timer with sec := timer.sec - 1, flag := .executing }).note [.committed me])
  | invoke {i me : Nat} (hpc : state.handler = .committed i me) :
      AtStep state .invoke
        ({ state with handler := .inCallback i me }.note [.invoked me state.scans])
  /-- The timer is over, and who waits for it is woken. -/
  | callbackReturn {i me : Nat} {timer : TimerSt} (hpc : state.handler = .inCallback i me)
      (ht : state.timers[me]? = some timer) (hflag : timer.flag = .executing) :
      AtStep state .callbackReturn ((({ state with handler := .scanning (i + 1) }.setTimer me
        { timer with flag := .over }).broadcast me).note [.callbackReturned me])
  | endScan {i : Nat} (hpc : state.handler = .scanning i) (hi : ¬ i < jobMax) :
      AtStep state .endScan ({ state with handler := .sleeping }.note [.scanEnded state.scans])
  | add {sec : Int} {pos : Nat} (hsec : 0 ≤ sec) (hunlocked : state.jobUnlocked = true)
      (hpos : getFreePosUnlocked state = some pos) :
      AtStep state (.add sec true ⟨true, none⟩)
        ({ state.setJob pos (some state.timers.length) with
            timers := state.timers ++ [(⟨sec, .running, false⟩ : TimerSt)] }.note
          [.added state.timers.length pos sec state.scans])
  /-- A call that returns an error. -/
  | refuse {event : AtEvent} {entry : AtEntry} (h : Refusal state entry) :
      AtStep state event (state.note [entry])
  | cancel {id : Int} {slot me : Nat} {timer : TimerSt} (hjob : state.job slot = some me)
      (ht : state.timers[me]? = some timer) (hflag : timer.flag = .running) :
      AtStep state (.cancel id) (((state.setTimer me { timer with flag := .canceled }).broadcast
        me).note [.canceled me])
  /-- A new call tests the flag, and waits or leaves. -/
  | wait {id : Int} {slot me : Nat} {timer : TimerSt} (hslot : slotOf id = some slot)
      (hjob : state.job slot = some me) (ht : state.timers[me]? = some timer)
      (halone : timer.flag.unfinished = false → ∀ (d : Nat) (other : WaitCall), state.waits[d]? = some other →
        other.me ≠ me) :
      AtStep state (.wait id)
        ({ state with waits := state.waits ++ [(⟨slot, me, waitTest timer⟩ : WaitCall)] }.note
          [.waitEntered me])
  | spurious {index : Nat} {call : WaitCall} (hcall : state.waits[index]? = some call)
      (hstage : call.stage = .waiting) :
      AtStep state (.spurious index) (state.setStage index call .woken)
  /-- A woken call tests the flag again. -/
  | resume {index : Nat} {call : WaitCall} {timer : TimerSt}
      (hcall : state.waits[index]? = some call) (hstage : call.stage = .woken)
      (ht : state.timers[call.me]? = some timer)
      (halone : timer.flag.unfinished = false → ∀ (d : Nat) (other : WaitCall), state.waits[d]? = some other →
        other.me = call.me → d = index) :
      AtStep state (.resume index) (state.setStage index call (waitTest timer))
  /-- A call that has left its loop clears the slot, which is still its timer's. -/
  | clear {index : Nat} {call : WaitCall} (hcall : state.waits[index]? = some call)
      (hstage : call.stage = .released) (hunlocked : state.jobUnlocked = true)
      (hjob : state.job call.slot = some call.me) :
      AtStep state (.clear index)
        ((state.setJob call.slot none).setStage index call .cleared)
  /-- Then it frees the timer, which nobody has freed. -/
  | free {index : Nat} {call : WaitCall} {timer : TimerSt}
      (hcall : state.waits[index]? = some call) (hstage : call.stage = .cleared)
      (ht : state.timers[call.me]? = some timer) (hfreed : timer.freed = false) :
      AtStep state (.free index) (((state.setTimer call.me { timer with freed := true }).setStage
        index call .returned).note [.freed call.me, .waitReturned call.me])

/-! ## Every accepted step is one of these -/

section Inversion

variable {state next : AtState}

/-- A timer in a slot is not freed, so a step on it goes on. -/
theorem AtInv.onTimer (inv : AtInv state) {i me : Nat} (hjob : state.job i = some me) :
    ∃ timer, state.timers[me]? = some timer ∧
      ∀ body, state.onTimer me body = some (body timer) := by
  obtain ⟨_, timer, ht, hfreed⟩ := inv.held i me hjob
  refine ⟨timer, ht, ?_⟩
  intro body
  simp [AtState.onTimer, ht, hfreed]

/-- A call stands where a step on it needs it. -/
theorem callAt_eq_some {index : Nat} {stage : WaitStage} {call : WaitCall}
    (h : state.callAt index stage = some call) :
    state.waits[index]? = some call ∧ call.stage = stage := by
  unfold AtState.callAt at h
  rw [Option.filter_eq_some_iff] at h
  exact ⟨h.1, of_decide_eq_true h.2⟩

/-- A visit of a slot skips it, counts its timer down or commits to calling it back. -/
theorem visitStep_inv (inv : AtInv state) (h : visitStep state = some next) :
    AtStep state .visit next := by
  unfold visitStep at h
  cases hpc : state.handler with
  | sleeping => simp [hpc] at h
  | committed i me => simp [hpc] at h
  | inCallback i me => simp [hpc] at h
  | scanning i =>
    simp only [hpc] at h
    rcases Nat.lt_or_ge i jobMax with hi | hi
    · rw [if_pos hi] at h
      cases hjob : state.job i with
      | none =>
        simp only [hjob, Option.some.injEq] at h
        subst h
        apply AtStep.skip hpc hi
        intro me timer hme
        rw [hjob] at hme
        cases hme
      | some me =>
        obtain ⟨timer, ht, hbody⟩ := inv.onTimer hjob
        simp only [hjob, hbody, Option.some.injEq] at h
        split at h
        · rename_i hflag
          split at h
          · rename_i hsec
            subst h
            exact AtStep.commit hpc hi hjob ht hflag hsec
          · rename_i hsec
            subst h
            exact AtStep.count hpc hi hjob ht hflag hsec
        · rename_i hflag
          subst h
          apply AtStep.skip hpc hi
          intro me' timer' hjob' ht'
          rw [hjob] at hjob'
          cases hjob'
          rw [ht] at ht'
          cases ht'
          exact hflag
    · rw [if_neg (by omega)] at h
      cases h

/-- The function is called for the timer that was committed to: it is in its slot. -/
theorem invokeStep_inv (inv : AtInv state) (h : invokeStep state = some next) :
    AtStep state .invoke next := by
  unfold invokeStep at h
  cases hpc : state.handler with
  | sleeping => simp [hpc] at h
  | scanning i => simp [hpc] at h
  | inCallback i me => simp [hpc] at h
  | committed i me =>
    have hok := inv.handler
    rw [hpc] at hok
    obtain ⟨timer, ht, hbody⟩ := inv.onTimer hok.1
    simp only [hpc, hbody, Option.some.injEq] at h
    subst h
    exact AtStep.invoke hpc

/-- The timer whose function returns has not been freed meanwhile. -/
theorem callbackStep_inv (inv : AtInv state) (h : callbackStep state = some next) :
    AtStep state .callbackReturn next := by
  unfold callbackStep at h
  cases hpc : state.handler with
  | sleeping => simp [hpc] at h
  | scanning i => simp [hpc] at h
  | committed i me => simp [hpc] at h
  | inCallback i me =>
    have hok := inv.handler
    rw [hpc] at hok
    obtain ⟨hjob, timer, ht, hflag⟩ := hok
    obtain ⟨_, timer', ht', hfreed⟩ := inv.held i me hjob
    rw [ht] at ht'
    cases ht'
    have hkept : ¬ timer.freed = true := by
      rw [hfreed]
      exact Bool.false_ne_true
    simp only [hpc, ht, if_neg hkept, hjob, AtState.onTimer, Option.some.injEq] at h
    subst h
    exact AtStep.callbackReturn hpc ht hflag

/-- An addition finds a free slot, or is refused. -/
theorem atAddtimer_inv {sec : Int} {func : Bool} {answers : AddAnswers}
    (h : atAddtimer sec func answers state = some next) :
    AtStep state (.add sec func answers) next := by
  unfold atAddtimer at h
  split at h
  · cases h
    exact AtStep.refuse (.addFailed _)
  · rename_i harguments
    split at h
    · cases h
      exact AtStep.refuse (.addFailed _)
    · rename_i hmalloc
      split at h
      · rename_i hunlocked
        cases hpos : getFreePosUnlocked state with
        | none =>
          simp only [hpos, Option.some.injEq] at h
          subst h
          exact AtStep.refuse (.addFailed _)
        | some pos =>
          cases hinit : answers.init with
          | some err =>
            simp only [hpos, hinit, Option.some.injEq] at h
            subst h
            exact AtStep.refuse (.addFailed _)
          | none =>
            simp only [hpos, hinit, Option.some.injEq] at h
            subst h
            obtain ⟨malloc, init⟩ := answers
            cases hinit
            cases func with
            | false => simp at harguments
            | true =>
              cases malloc with
              | false => simp at hmalloc
              | true => exact AtStep.add (by omega) hunlocked hpos
      · cases h

/-- A cancellation finds a running timer, or is refused. -/
theorem atCanceltimer_inv (inv : AtInv state) {id : Int}
    (h : atCanceltimer id state = some next) : AtStep state (.cancel id) next := by
  unfold atCanceltimer at h
  split at h
  · cases h
    exact AtStep.refuse (.cancelFailed _)
  · rename_i slot _
    split at h
    · cases hjob : state.job slot with
      | none =>
        simp only [hjob, Option.some.injEq] at h
        subst h
        exact AtStep.refuse (.cancelFailed _)
      | some me =>
        obtain ⟨timer, ht, hbody⟩ := inv.onTimer hjob
        simp only [hjob, hbody, Option.some.injEq] at h
        cases hflag : timer.flag with
        | running =>
          simp only [hflag] at h
          subst h
          exact AtStep.cancel hjob ht hflag
        | executing =>
          simp only [hflag] at h
          subst h
          exact AtStep.refuse (.busy ht (Or.inr hflag))
        | «over» =>
          simp only [hflag] at h
          subst h
          exact AtStep.refuse (.busy ht (Or.inl hflag))
        | canceled =>
          simp only [hflag] at h
          subst h
          exact AtStep.refuse (.canceled me)
    · cases h

/-- The call that leaves its loop is alone: nobody else is inside its timer. -/
theorem others_of_leavesAlone {event : AtEvent} {index me : Nat} {timer : TimerSt}
    (halone : leavesAlone state event = true) (htester : state.tester event = some (index, me))
    (ht : state.timers[me]? = some timer) (hflag : timer.flag.unfinished = false) :
    ∀ (d : Nat) (other : WaitCall), state.waits[d]? = some other → d ≠ index → other.me = me →
      other.stage = .returned := by
  intro d other hother hne hme
  have hmem : other ∈ state.waits.eraseIdx index :=
    List.mem_eraseIdx_iff_getElem?.mpr ⟨d, hne, hother⟩
  simp only [leavesAlone, htester, AtState.finished, ht, Option.any_some, hflag, Bool.not_false,
    Bool.not_true, Bool.false_or, Bool.not_eq_true', List.any_eq_false] at halone
  have hinside := halone other hmem
  simpa [WaitCall.inside, hme] using hinside

/-- Nobody has returned from a timer that is still in a slot. -/
theorem AtInv.not_returned (inv : AtInv state) {i me : Nat} (hjob : state.job i = some me)
    {d : Nat} {other : WaitCall} (hother : state.waits[d]? = some other) (hme : other.me = me) :
    other.stage ≠ .returned := by
  intro hstage
  apply (inv.calls d other hother).gone (by rw [hstage]; rfl) i
  rw [hme]
  exact hjob

/-- A wait finds a timer, or is refused.  If the timer is finished it leaves at once, and by
the condition nobody else is inside. -/
theorem atWaittimer_inv (inv : AtInv state) {id : Int}
    (halone : leavesAlone state (.wait id) = true) (h : atWaittimer id state = some next) :
    AtStep state (.wait id) next := by
  unfold atWaittimer at h
  cases hslot : slotOf id with
  | none =>
    simp only [hslot, Option.some.injEq] at h
    subst h
    exact AtStep.refuse (.waitFailed _)
  | some slot =>
    simp only [hslot] at h
    split at h
    · cases hjob : state.job slot with
      | none =>
        simp only [hjob, Option.some.injEq] at h
        subst h
        exact AtStep.refuse (.waitFailed _)
      | some me =>
        obtain ⟨timer, ht, hbody⟩ := inv.onTimer hjob
        simp only [hjob, hbody, Option.some.injEq] at h
        subst h
        have htester : state.tester (.wait id) = some (state.waits.length, me) := by
          simp [AtState.tester, hslot, hjob]
        apply AtStep.wait hslot hjob ht
        intro hflag d other hother hme
        have hlt : d < state.waits.length := (List.getElem?_eq_some_iff.mp hother).1
        exact inv.not_returned hjob hother hme
          (others_of_leavesAlone halone htester ht hflag d other hother (by omega) hme)
    · cases h

/-- A woken call still finds its timer in the slot. -/
theorem resumeStep_inv (inv : AtInv state) {index : Nat}
    (halone : leavesAlone state (.resume index) = true) (h : resumeStep index state = some next) :
    AtStep state (.resume index) next := by
  unfold resumeStep at h
  cases hat : state.callAt index .woken with
  | none => simp [hat] at h
  | some call =>
    obtain ⟨hcall, hstage⟩ := callAt_eq_some hat
    have hjob := (inv.calls index call hcall).slot (by rw [hstage]; rfl)
    obtain ⟨timer, ht, hbody⟩ := inv.onTimer hjob
    simp only [hat, hbody, Option.some.injEq] at h
    subst h
    have htester : state.tester (.resume index) = some (index, call.me) := by
      simp [AtState.tester, hcall]
    apply AtStep.resume hcall hstage ht
    intro hflag d other hother hme
    rcases Nat.decEq d index with hne | heq
    · exact absurd (others_of_leavesAlone halone htester ht hflag d other hother hne hme)
        (inv.not_returned hjob hother hme)
    · exact heq

/-- The slot that is cleared is that of the call's timer. -/
theorem clearStep_inv (inv : AtInv state) {index : Nat} (h : clearStep index state = some next) :
    AtStep state (.clear index) next := by
  unfold clearStep at h
  cases hat : state.callAt index .released with
  | none => simp [hat] at h
  | some call =>
    obtain ⟨hcall, hstage⟩ := callAt_eq_some hat
    have hjob := (inv.calls index call hcall).slot (by rw [hstage]; rfl)
    simp only [hat] at h
    split at h
    · rename_i hunlocked
      rw [Option.some.injEq] at h
      subst h
      exact AtStep.clear hcall hstage hunlocked hjob
    · cases h

/-- The timer that is freed was not freed before: only a call that has returned has freed
its timer. -/
theorem freeStep_inv (inv : AtInv state) {index : Nat} (h : freeStep index state = some next) :
    AtStep state (.free index) next := by
  unfold freeStep at h
  cases hat : state.callAt index .cleared with
  | none => simp [hat] at h
  | some call =>
    obtain ⟨hcall, hstage⟩ := callAt_eq_some hat
    obtain ⟨timer, ht, hfreed, _⟩ := (inv.calls index call hcall).timer
    have hkept : ¬ timer.freed = true := by
      intro hbool
      have hreturned := hfreed.mp hbool
      rw [hstage] at hreturned
      cases hreturned
    simp only [hat, ht, if_neg hkept, Option.some.injEq] at h
    subst h
    exact AtStep.free hcall hstage ht (Bool.not_eq_true _ ▸ hkept)

/-- What an accepted step does: the end of the first round. -/
theorem atStep_inv (inv : AtInv state) {event : AtEvent} (halone : leavesAlone state event = true)
    (h : atStep state event = some next) : AtStep state event next := by
  unfold atStep at h
  rw [inv.clean] at h
  simp only [List.any_nil, Bool.false_eq_true, if_false] at h
  cases event with
  | scan =>
    cases hpc : state.handler with
    | sleeping =>
      simp only [scanStep, hpc, Option.some.injEq] at h
      subst h
      exact AtStep.scan hpc
    | scanning i => simp [scanStep, hpc] at h
    | committed i me => simp [scanStep, hpc] at h
    | inCallback i me => simp [scanStep, hpc] at h
  | visit => exact visitStep_inv inv h
  | invoke => exact invokeStep_inv inv h
  | callbackReturn => exact callbackStep_inv inv h
  | endScan =>
    cases hpc : state.handler with
    | sleeping => simp [endScanStep, hpc] at h
    | scanning i =>
      simp only [endScanStep, hpc] at h
      split at h
      · cases h
      · rename_i hi
        cases h
        exact AtStep.endScan hpc hi
    | committed i me => simp [endScanStep, hpc] at h
    | inCallback i me => simp [endScanStep, hpc] at h
  | add sec func answers => exact atAddtimer_inv h
  | cancel id => exact atCanceltimer_inv inv h
  | wait id => exact atWaittimer_inv inv halone h
  | spurious index =>
    simp only [spuriousStep] at h
    cases hat : state.callAt index .waiting with
    | none => simp [hat] at h
    | some call =>
      obtain ⟨hcall, hstage⟩ := callAt_eq_some hat
      simp only [hat, Option.some.injEq] at h
      subst h
      exact AtStep.spurious hcall hstage
  | resume index => exact resumeStep_inv inv halone h
  | clear index => exact clearStep_inv inv h
  | free index => exact freeStep_inv inv h

end Inversion

/-! ## Every step keeps the invariant -/

section Preserved

variable {state next : AtState}

/-- No timer is freed, none is lost, and a finished timer keeps its flag. -/
def Advances (state next : AtState) : Prop :=
  ∀ (me : Nat) (timer : TimerSt), state.timers[me]? = some timer →
    ∃ timer', next.timers[me]? = some timer' ∧ timer'.freed = timer.freed ∧
      (timer.flag.unfinished = false → timer'.flag = timer.flag)

theorem advances_of_eq (h : next.timers = state.timers) : Advances state next := by
  intro me timer ht
  rw [← h] at ht
  exact ⟨timer, ht, rfl, fun _ => rfl⟩

/-- What a change of one timer leaves of the others and of itself. -/
theorem getElem?_setTimer {me : Nat} {timer : TimerSt} (ht : state.timers[me]? = some timer)
    (changed : TimerSt) (other : Nat) :
    (state.timers.set me changed)[other]? =
      if other = me then some changed else state.timers[other]? := by
  have hlt : me < state.timers.length := (List.getElem?_eq_some_iff.mp ht).1
  rw [List.getElem?_set]
  rcases eq_or_ne other me with rfl | hne
  · simp [hlt]
  · simp [hne, hne.symm]

/-- Only a timer that is not finished changes its flag. -/
theorem advances_setTimer {me : Nat} {timer changed : TimerSt}
    (ht : state.timers[me]? = some timer) (hflag : timer.flag.unfinished = true)
    (h : next.timers = state.timers.set me changed) (hfreed : changed.freed = timer.freed) :
    Advances state next := by
  intro other old hold
  rw [h, getElem?_setTimer ht]
  rcases eq_or_ne other me with rfl | hne
  · rw [ht] at hold
    cases hold
    refine ⟨changed, if_pos rfl, hfreed, ?_⟩
    intro hfinal
    rw [hflag] at hfinal
    cases hfinal
  · exact ⟨old, by rw [if_neg hne, hold], rfl, fun _ => rfl⟩

/-- The same call, perhaps woken. -/
structure SameCall (call call' : WaitCall) : Prop where
  slot : call'.slot = call.slot
  me : call'.me = call.me
  stage : call'.stage = call.stage ∨ call.stage = .waiting ∧ call'.stage = .woken

theorem SameCall.refl (call : WaitCall) : SameCall call call := ⟨rfl, rfl, Or.inl rfl⟩

/-- Waking moves a call between two stages inside its loop. -/
theorem SameCall.facts {call call' : WaitCall} (same : SameCall call call') :
    call'.stage.holds = call.stage.holds ∧ call'.stage.left = call.stage.left ∧
      (call'.stage = .returned ↔ call.stage = .returned) := by
  rcases same.stage with h | ⟨h, h'⟩
  · rw [h]
    exact ⟨rfl, rfl, Iff.rfl⟩
  · rw [h, h']
    exact ⟨rfl, rfl, by simp⟩

/-- What holds of a call depends on the table, on its timer's memory and on whether the
timer is finished. -/
theorem CallOk.of_same {call call' : WaitCall} (hok : CallOk state call)
    (hjob : next.job = state.job) (hadv : Advances state next) (same : SameCall call call') :
    CallOk next call' := by
  obtain ⟨hholds, hleft, hreturned⟩ := same.facts
  refine ⟨?_, ?_, ?_⟩
  · intro h
    rw [hjob, same.slot, same.me]
    exact hok.slot (hholds ▸ h)
  · intro h
    rw [hjob, same.me]
    exact hok.gone (hholds ▸ h)
  · obtain ⟨timer, ht, hfreed, hflag⟩ := hok.timer
    obtain ⟨timer', ht', hfreed', hflag'⟩ := hadv call.me timer ht
    rw [same.me, hleft, hreturned]
    refine ⟨timer', ht', by rw [hfreed']; exact hfreed, ?_⟩
    intro h
    rw [hflag' (hflag h)]
    exact hflag h

/-- The handler's timer is still in its slot and still executing. -/
theorem HandlerOk.of_kept {pc : HandlerPc} (hok : HandlerOk state pc)
    (hkept : ∀ (i me : Nat) (timer : TimerSt), state.job i = some me →
      state.timers[me]? = some timer → timer.flag = .executing →
      next.job i = some me ∧ ∃ timer', next.timers[me]? = some timer' ∧ timer'.flag = .executing) :
    HandlerOk next pc := by
  cases pc with
  | sleeping => trivial
  | scanning i => trivial
  | committed i me =>
    obtain ⟨hjob, timer, ht, hflag⟩ := hok
    exact hkept i me timer hjob ht hflag
  | inCallback i me =>
    obtain ⟨hjob, timer, ht, hflag⟩ := hok
    exact hkept i me timer hjob ht hflag

/-- A step that changes neither the table nor what the calls of `at_waittimer` do,
except that it may wake some, keeps the invariant. -/
theorem AtInv.of_same (inv : AtInv state) (hjob : next.job = state.job)
    (hadv : Advances state next)
    (hwaits : ∀ (c : Nat) (call' : WaitCall), next.waits[c]? = some call' →
      ∃ call, state.waits[c]? = some call ∧ SameCall call call')
    (hhandler : HandlerOk next next.handler) (hclean : next.violations = state.violations) :
    AtInv next := by
  refine ⟨?_, ?_, ?_, ?_, hhandler, hclean.trans inv.clean⟩
  · intro i me h
    rw [hjob] at h
    obtain ⟨hi, timer, ht, hfreed⟩ := inv.held i me h
    obtain ⟨timer', ht', hfreed', _⟩ := hadv me timer ht
    exact ⟨hi, timer', ht', hfreed'.trans hfreed⟩
  · rw [hjob]
    exact inv.once
  · intro c call' hcall'
    obtain ⟨call, hcall, same⟩ := hwaits c call' hcall'
    exact (inv.calls c call hcall).of_same hjob hadv same
  · intro c d call' other' hcall' hother' hme hleft
    obtain ⟨call, hcall, same⟩ := hwaits c call' hcall'
    obtain ⟨other, hother, same'⟩ := hwaits d other' hother'
    apply inv.alone c d call other hcall hother
    · rw [← same'.me, ← same.me, hme]
    · rw [← same.facts.2.1, hleft]

/-- Calls that do not change are the same calls. -/
theorem same_of_eq (h : next.waits = state.waits) (c : Nat) (call' : WaitCall)
    (hcall' : next.waits[c]? = some call') :
    ∃ call, state.waits[c]? = some call ∧ SameCall call call' := by
  rw [h] at hcall'
  exact ⟨call', hcall', .refl call'⟩

/-- A broadcast wakes calls and does nothing else to them. -/
theorem same_of_wake {me : Nat} (h : next.waits = state.waits.map (WaitCall.wake me)) (c : Nat)
    (call' : WaitCall) (hcall' : next.waits[c]? = some call') :
    ∃ call, state.waits[c]? = some call ∧ SameCall call call' := by
  rw [h, List.getElem?_map] at hcall'
  cases hcall : state.waits[c]? with
  | none => simp [hcall] at hcall'
  | some call =>
    rw [hcall, Option.map_some, Option.some.injEq] at hcall'
    refine ⟨call, rfl, ?_⟩
    rw [← hcall']
    unfold WaitCall.wake
    split
    · rename_i hwake
      exact ⟨rfl, rfl, Or.inr ⟨hwake.2, rfl⟩⟩
    · exact .refl call

/-- A call that has left its loop is alone after one call was set, when that one is alone. -/
theorem AtInv.alone_of_set (inv : AtInv state) {waits : List WaitCall} {index : Nat}
    {set : WaitCall} (hwaits : ∀ c, waits[c]? = if c = index then some set else state.waits[c]?)
    (hset : ∀ (d : Nat) (other : WaitCall), state.waits[d]? = some other → other.me = set.me →
      set.stage.left = true ∨ other.stage.left = true → d = index)
    (c d : Nat) (call other : WaitCall) (hcall : waits[c]? = some call)
    (hother : waits[d]? = some other) (hme : other.me = call.me)
    (hleft : call.stage.left = true) : d = c := by
  rw [hwaits] at hcall hother
  split at hcall
  · rename_i hc
    cases hcall
    split at hother
    · rename_i hd
      rw [hc, hd]
    · rw [hc]
      exact hset d other hother hme (Or.inl hleft)
  · split at hother
    · rename_i hd
      cases hother
      rw [hd]
      exact (hset c call hcall hme.symm (Or.inr hleft)).symm
    · exact inv.alone c d call other hcall hother hme hleft

/-- A call that reaches another stage, and the others. -/
theorem getElem?_setStage {index : Nat} {call : WaitCall}
    (hcall : state.waits[index]? = some call) (stage : WaitStage) (c : Nat) :
    (state.waits.set index { call with stage := stage })[c]? =
      if c = index then some { call with stage := stage } else state.waits[c]? := by
  have hlt : index < state.waits.length := (List.getElem?_eq_some_iff.mp hcall).1
  rw [List.getElem?_set]
  rcases eq_or_ne c index with rfl | hne
  · simp [hlt]
  · simp [hne, hne.symm]

/-- The handler's timer stays where it is when the table and the timers do. -/
theorem HandlerOk.of_eq {pc : HandlerPc} (hok : HandlerOk state pc)
    (hjob : next.job = state.job) (htimers : next.timers = state.timers) : HandlerOk next pc := by
  apply hok.of_kept
  intro i me timer h ht hflag
  rw [hjob, htimers]
  exact ⟨h, timer, ht, hflag⟩

/-- A call of `at_waittimer` that tests its flag keeps the invariant when it is alone
in case it leaves. -/
theorem AtInv.of_test (inv : AtInv state) {index slot me : Nat} {timer : TimerSt}
    (hjob : state.job slot = some me) (ht : state.timers[me]? = some timer)
    (hfree : timer.freed = false)
    (hwaits : ∀ c, next.waits[c]? =
      if c = index then some ⟨slot, me, waitTest timer⟩ else state.waits[c]?)
    (halone : timer.flag.unfinished = false →
      ∀ (d : Nat) (other : WaitCall), state.waits[d]? = some other → other.me = me → d = index)
    (hsame : next.job = state.job ∧ next.timers = state.timers ∧ next.handler = state.handler ∧
      next.violations = state.violations) : AtInv next := by
  obtain ⟨hjobs, htimers, hpc, hviolations⟩ := hsame
  -- what the tested call is afterwards
  have hstage : (waitTest timer).holds = true ∧ waitTest timer ≠ .returned ∧
      ((waitTest timer).left = true → timer.flag.unfinished = false) := by
    unfold waitTest
    cases hflag : timer.flag.unfinished with
    | true => exact ⟨rfl, by simp, by simp [WaitStage.left]⟩
    | false => exact ⟨rfl, by simp, by simp⟩
  refine ⟨?_, ?_, ?_, ?_, ?_, hviolations.trans inv.clean⟩
  · rw [hjobs, htimers]
    exact inv.held
  · rw [hjobs]
    exact inv.once
  · intro c call hcall
    rw [hwaits] at hcall
    split at hcall
    · cases hcall
      refine ⟨?_, ?_, timer, by rw [htimers]; exact ht, ?_, hstage.2.2⟩
      · intro _
        rw [hjobs]
        exact hjob
      · intro h
        rw [hstage.1] at h
        cases h
      · rw [hfree]
        simp [hstage.2.1]
    · exact (inv.calls c call hcall).of_same hjobs (advances_of_eq htimers) (.refl call)
  · refine inv.alone_of_set hwaits fun d other hother hme hleft => ?_
    rcases hleft with hleft | hleft
    · exact halone (hstage.2.2 hleft) d other hother hme
    · -- a call that has left is alone, so the tested call is not on its timer
      obtain ⟨timer', ht', _, hfinal⟩ := (inv.calls d other hother).timer
      rw [hme, ht] at ht'
      cases ht'
      exact halone (hfinal hleft) d other hother hme
  · rw [hpc]
    exact inv.handler.of_eq hjobs htimers

/-- The position that is found is that of an empty slot. -/
theorem getFreePosUnlocked_spec {pos : Nat} (h : getFreePosUnlocked state = some pos) :
    pos < jobMax ∧ state.job pos = none := by
  unfold getFreePosUnlocked at h
  have hmem := List.mem_of_find?_eq_some h
  have hfree := List.find?_some h
  exact ⟨List.mem_range.mp hmem, Option.isNone_iff_eq_none.mp hfree⟩

theorem setJob_job (pos : Nat) (held : Option Nat) (i : Nat) :
    (state.setJob pos held).job i = if i = pos then held else state.job i :=
  Function.update_apply _ _ _ _

/-- A timer in a slot has been allocated. -/
theorem AtInv.lt_length (inv : AtInv state) {i me : Nat} (h : state.job i = some me) :
    me < state.timers.length := by
  obtain ⟨_, timer, ht, _⟩ := inv.held i me h
  exact (List.getElem?_eq_some_iff.mp ht).1

theorem getElem?_concat_of_some {α : Type} {l : List α} {i : Nat} {a : α} (h : l[i]? = some a)
    (b : α) : (l ++ [b])[i]? = some a := by
  rw [List.getElem?_append_left (List.getElem?_eq_some_iff.mp h).1]
  exact h

/-- A timer added to a free slot keeps the invariant: it is a new one, so no call is on it
and no other slot holds it. -/
theorem AtInv.add (inv : AtInv state) {pos : Nat} {timer : TimerSt} (hpos : pos < jobMax)
    (hempty : state.job pos = none) (hfreed : timer.freed = false)
    (hjob : next.job = (state.setJob pos (some state.timers.length)).job)
    (htimers : next.timers = state.timers ++ [timer])
    (hsame : next.waits = state.waits ∧ next.handler = state.handler ∧
      next.violations = state.violations) : AtInv next := by
  obtain ⟨hwaits, hpc, hviolations⟩ := hsame
  -- the slots that were taken stay, and so do the timers that were there
  have hkeep : ∀ i me, state.job i = some me → next.job i = some me := by
    intro i me h
    rw [hjob, setJob_job, if_neg]
    · exact h
    · rintro rfl
      rw [hempty] at h
      cases h
  have hnew : next.timers[state.timers.length]? = some timer := by
    rw [htimers, List.getElem?_append_right (Nat.le_refl _), Nat.sub_self]
    rfl
  have hold : ∀ (me : Nat) (old : TimerSt), state.timers[me]? = some old →
      next.timers[me]? = some old := by
    intro me old h
    rw [htimers]
    exact getElem?_concat_of_some h timer
  refine ⟨?_, ?_, ?_, ?_, ?_, hviolations.trans inv.clean⟩
  · intro i me h
    rw [hjob, setJob_job] at h
    split at h
    · rename_i hi
      cases h
      exact ⟨hi ▸ hpos, timer, hnew, hfreed⟩
    · obtain ⟨hi, old, ht, hkept⟩ := inv.held i me h
      exact ⟨hi, old, hold me old ht, hkept⟩
  · intro i j me hi hj
    rw [hjob, setJob_job] at hi hj
    split at hi
    · rename_i hipos
      cases hi
      split at hj
      · rename_i hjpos
        rw [hipos, hjpos]
      · have := inv.lt_length hj
        omega
    · split at hj
      · cases hj
        have := inv.lt_length hi
        omega
      · exact inv.once i j me hi hj
  · intro c call hcall
    rw [hwaits] at hcall
    have hok := inv.calls c call hcall
    obtain ⟨old, ht, hrest⟩ := hok.timer
    refine ⟨?_, ?_, old, hold call.me old ht, hrest⟩
    · intro h
      exact hkeep _ _ (hok.slot h)
    · intro h i hi
      rw [hjob, setJob_job] at hi
      split at hi
      · have hlt := (List.getElem?_eq_some_iff.mp ht).1
        rw [Option.some.injEq] at hi
        omega
      · exact hok.gone h i hi
  · rw [hwaits]
    exact inv.alone
  · rw [hpc]
    apply inv.handler.of_kept
    intro i me old h ht hflag
    exact ⟨hkeep i me h, old, hold me old ht, hflag⟩

/-- Clearing the slot of the timer that is being released keeps the invariant: the
timer is finished, so the handler is not calling it back, and nobody else is inside. -/
theorem AtInv.clear (inv : AtInv state) {index : Nat} {call : WaitCall}
    (hcall : state.waits[index]? = some call) (hstage : call.stage = .released) :
    AtInv ((state.setJob call.slot none).setStage index call .cleared) := by
  have hok := inv.calls index call hcall
  have hjob : state.job call.slot = some call.me := hok.slot (by rw [hstage]; rfl)
  obtain ⟨timer, ht, hfreed, hfinal⟩ := hok.timer
  have hflag : timer.flag.unfinished = false := hfinal (by rw [hstage]; rfl)
  have halone := fun (d : Nat) (other : WaitCall) (hother : state.waits[d]? = some other)
    (hme : other.me = call.me) =>
      inv.alone index d call other hcall hother hme (by rw [hstage]; rfl)
  have hjobs : ∀ i, ((state.setJob call.slot none).setStage index call .cleared).job i =
      if i = call.slot then none else state.job i := setJob_job _ _
  have hwaits := getElem?_setStage hcall .cleared
  refine ⟨?_, ?_, ?_, ?_, ?_, inv.clean⟩
  · intro i me h
    rw [hjobs] at h
    split at h
    · cases h
    · exact inv.held i me h
  · intro i j me hi hj
    rw [hjobs] at hi hj
    split at hi
    · cases hi
    · split at hj
      · cases hj
      · exact inv.once i j me hi hj
  · intro c other hother
    have hother' := (hwaits c).symm.trans hother
    split at hother'
    · cases hother'
      refine ⟨?_, ?_, timer, ht, ?_, fun _ => hflag⟩
      · intro h
        cases h
      · intro _ i hi
        rw [hjobs] at hi
        split at hi
        · cases hi
        · rename_i hne
          exact hne (inv.once call.slot i call.me hjob hi)
      · rw [hstage] at hfreed
        simpa using hfreed
    · rename_i hc
      have hok' := inv.calls c other hother'
      refine ⟨?_, ?_, hok'.timer⟩
      · intro h
        rw [hjobs, if_neg]
        · exact hok'.slot h
        · intro hslot
          have hjob' := hok'.slot h
          rw [hslot, hjob, Option.some.injEq] at hjob'
          exact hc (halone c other hother' hjob'.symm)
      · intro h i hi
        rw [hjobs] at hi
        split at hi
        · cases hi
        · exact hok'.gone h i hi
  · exact inv.alone_of_set hwaits fun d other hother hme _ => halone d other hother hme
  · apply inv.handler.of_kept
    intro i me executing h hexecuting hflag'
    refine ⟨?_, executing, hexecuting, hflag'⟩
    rw [hjobs, if_neg]
    · exact h
    · rintro rfl
      rw [hjob] at h
      cases h
      rw [ht] at hexecuting
      cases hexecuting
      rw [hflag'] at hflag
      cases hflag

/-- Freeing a timer that is in no slot keeps the invariant: nobody else can reach it, the
handler through the table or a call that is on it. -/
theorem AtInv.free (inv : AtInv state) {index : Nat} {call : WaitCall} {timer : TimerSt}
    (hcall : state.waits[index]? = some call) (hstage : call.stage = .cleared)
    (ht : state.timers[call.me]? = some timer)
    (hjob : next.job = state.job)
    (htimers : next.timers = state.timers.set call.me { timer with freed := true })
    (hwaits : next.waits = state.waits.set index { call with stage := .returned })
    (hsame : next.handler = state.handler ∧ next.violations = state.violations) : AtInv next := by
  have hok := inv.calls index call hcall
  have hgone : ∀ i, state.job i ≠ some call.me := hok.gone (by rw [hstage]; rfl)
  have hflag : timer.flag.unfinished = false := by
    obtain ⟨timer', ht', _, hfinal⟩ := hok.timer
    rw [ht] at ht'
    cases ht'
    exact hfinal (by rw [hstage]; rfl)
  have halone := fun (d : Nat) (other : WaitCall) (hother : state.waits[d]? = some other)
    (hme : other.me = call.me) =>
      inv.alone index d call other hcall hother hme (by rw [hstage]; rfl)
  have hother : ∀ (me : Nat), me ≠ call.me → next.timers[me]? = state.timers[me]? := by
    intro me hne
    rw [htimers, getElem?_setTimer ht, if_neg hne]
  have hself : next.timers[call.me]? = some { timer with freed := true } := by
    rw [htimers, getElem?_setTimer ht, if_pos rfl]
  have hcalls : ∀ c, next.waits[c]? =
      if c = index then some { call with stage := .returned } else state.waits[c]? := by
    intro c
    rw [hwaits]
    exact getElem?_setStage hcall .returned c
  have hne : ∀ i me, state.job i = some me → me ≠ call.me := by
    rintro i me h rfl
    exact hgone i h
  refine ⟨?_, ?_, ?_, ?_, ?_, hsame.2.trans inv.clean⟩
  · intro i me h
    rw [hjob] at h
    rw [hother me (hne i me h)]
    exact inv.held i me h
  · rw [hjob]
    exact inv.once
  · intro c other hcall'
    rw [hcalls] at hcall'
    split at hcall'
    · cases hcall'
      refine ⟨?_, ?_, _, hself, by simp, fun _ => hflag⟩
      · intro h
        cases h
      · intro _
        rw [hjob]
        exact hgone
    · rename_i hc
      have hok' := inv.calls c other hcall'
      refine ⟨?_, ?_, ?_⟩
      · rw [hjob]
        exact hok'.slot
      · rw [hjob]
        exact hok'.gone
      · rw [hother other.me (fun hme => hc (halone c other hcall' hme))]
        exact hok'.timer
  · exact inv.alone_of_set hcalls fun d other hother hme _ => halone d other hother hme
  · rw [hsame.1]
    apply inv.handler.of_kept
    intro i me executing h hexecuting hflag'
    rw [hjob, hother me (hne i me h)]
    exact ⟨h, executing, hexecuting, hflag'⟩

/-- Every step keeps the invariant: the second round. -/
theorem AtStep.inv {event : AtEvent} (step : AtStep state event next) (inv : AtInv state) :
    AtInv next := by
  cases step with
  | scan hpc => exact inv.of_same rfl (advances_of_eq rfl) (same_of_eq rfl) trivial rfl
  | skip hpc hi hidle => exact inv.of_same rfl (advances_of_eq rfl) (same_of_eq rfl) trivial rfl
  | count hpc hi hjob ht hflag hsec =>
    exact inv.of_same rfl (advances_setTimer ht (by rw [hflag]; rfl) rfl rfl) (same_of_eq rfl)
      trivial rfl
  | commit hpc hi hjob ht hflag hsec =>
    refine inv.of_same rfl (advances_setTimer ht (by rw [hflag]; rfl) rfl rfl) (same_of_eq rfl) ?_
      rfl
    exact ⟨hjob, _, (getElem?_setTimer ht _ _).trans (if_pos rfl), rfl⟩
  | invoke hpc =>
    refine inv.of_same rfl (advances_of_eq rfl) (same_of_eq rfl) ?_ rfl
    have hok := inv.handler
    rw [hpc] at hok
    exact hok
  | callbackReturn hpc ht hflag =>
    exact inv.of_same rfl (advances_setTimer ht (by rw [hflag]; rfl) rfl rfl) (same_of_wake rfl)
      trivial rfl
  | endScan hpc hi => exact inv.of_same rfl (advances_of_eq rfl) (same_of_eq rfl) trivial rfl
  | add hsec hunlocked hpos =>
    obtain ⟨hlt, hempty⟩ := getFreePosUnlocked_spec hpos
    exact inv.add hlt hempty rfl rfl rfl ⟨rfl, rfl, rfl⟩
  | refuse h =>
    exact inv.of_same rfl (advances_of_eq rfl) (same_of_eq rfl) (inv.handler.of_eq rfl rfl) rfl
  | @cancel id slot me timer hjob ht hflag =>
    refine inv.of_same rfl (advances_setTimer ht (by rw [hflag]; rfl) rfl rfl) (same_of_wake rfl)
      ?_ rfl
    apply inv.handler.of_kept
    intro i other executing h hexecuting hflag'
    refine ⟨h, executing, (getElem?_setTimer ht _ _).trans ?_, hflag'⟩
    rw [if_neg]
    · exact hexecuting
    · rintro rfl
      rw [ht] at hexecuting
      cases hexecuting
      rw [hflag] at hflag'
      cases hflag'
  | @wait id slot me timer hslot hjob ht halone =>
    obtain ⟨_, timer', ht', hfree⟩ := inv.held slot me hjob
    rw [ht] at ht'
    cases ht'
    refine inv.of_test hjob ht hfree (fun c => ?_ : ∀ c, _ = if c = state.waits.length then _ else _)
      ?_ ⟨rfl, rfl, rfl, rfl⟩
    · show (state.waits ++ [_])[c]? = _
      rcases Nat.lt_trichotomy c state.waits.length with hlt | heq | hgt
      · rw [List.getElem?_append_left hlt, if_neg (by omega)]
      · rw [heq, if_pos rfl, List.getElem?_append_right (Nat.le_refl _), Nat.sub_self]
        rfl
      · rw [if_neg (by omega), List.getElem?_eq_none_iff.mpr (by simp; omega),
          List.getElem?_eq_none_iff.mpr (by omega)]
    · intro hfinal d other hother hme
      exact absurd hme (halone hfinal d other hother)
  | @spurious index call hcall hstage =>
    refine inv.of_same rfl (advances_of_eq rfl) ?_ (inv.handler.of_eq rfl rfl) rfl
    intro c call' hcall'
    have hcall'' := (getElem?_setStage hcall .woken c).symm.trans hcall'
    split at hcall''
    · rename_i hc
      cases hcall''
      exact ⟨call, by rw [hc, hcall], rfl, rfl, Or.inr ⟨hstage, rfl⟩⟩
    · exact ⟨call', hcall'', .refl call'⟩
  | @resume index call timer hcall hstage ht halone =>
    have hjob := (inv.calls index call hcall).slot (by rw [hstage]; rfl)
    obtain ⟨_, timer', ht', hfree⟩ := inv.held _ _ hjob
    rw [ht] at ht'
    cases ht'
    exact inv.of_test hjob ht hfree (getElem?_setStage hcall (waitTest timer)) halone
      ⟨rfl, rfl, rfl, rfl⟩
  | clear hcall hstage hunlocked hjob => exact inv.clear hcall hstage
  | free hcall hstage ht hfreed => exact inv.free hcall hstage ht rfl rfl rfl ⟨rfl, rfl⟩

end Preserved

/-! ## What the log says about the memory and the table -/

/-- The timer has been freed. -/
def AtState.isFreed (state : AtState) (me : Nat) : Bool :=
  (state.timers[me]?).any TimerSt.freed

/-- A timer that was added is in its slot until a call on it has cleared the slot. -/
def InPlace (state : AtState) (me pos : Nat) : Prop :=
  state.job pos = some me ∨
    ∃ call ∈ state.waits, call.slot = pos ∧ call.me = me ∧ call.stage.holds = false

/-- The log of the runs in which every call leaves its loop alone. -/
structure AtLedger (state : AtState) : Prop where
  /-- A timer is freed once, and the log has it. -/
  freed : ∀ me, state.log.count (.freed me) = if state.isFreed me then 1 else 0
  /-- A timer that was added is in its place. -/
  placed : ∀ (me pos : Nat) (sec : Int) (scan : Nat),
    AtEntry.added me pos sec scan ∈ state.log → InPlace state me pos

section Ledger

variable {state next : AtState}

theorem isFreed_of_advances (hadv : Advances state next)
    (hlength : next.timers.length = state.timers.length) (me : Nat) :
    next.isFreed me = state.isFreed me := by
  unfold AtState.isFreed
  cases ht : state.timers[me]? with
  | none =>
    rw [List.getElem?_eq_none_iff, ← hlength, ← List.getElem?_eq_none_iff] at ht
    rw [ht]
  | some timer =>
    obtain ⟨timer', ht', hfreed, _⟩ := hadv me timer ht
    rw [ht', Option.any_some, Option.any_some, hfreed]

/-- A timer is freed as often as the log says after a step that frees none. -/
theorem freed_of_advances {me : Nat}
    (h : state.log.count (.freed me) = if state.isFreed me then 1 else 0)
    (hadv : Advances state next) (hlength : next.timers.length = state.timers.length)
    {entries : List AtEntry} (hlog : next.log = state.log ++ entries)
    (hentries : entries.count (.freed me) = 0) :
    next.log.count (.freed me) = if next.isFreed me then 1 else 0 := by
  rw [hlog, List.count_append, hentries, isFreed_of_advances hadv hlength, Nat.add_zero]
  exact h

/-- The calls of `at_waittimer` stay, and what they cleared stays cleared. -/
def CallsGrow (state next : AtState) : Prop :=
  ∀ (c : Nat) (call : WaitCall), state.waits[c]? = some call →
    ∃ call', next.waits[c]? = some call' ∧ call'.slot = call.slot ∧ call'.me = call.me ∧
      (call.stage.holds = false → call'.stage.holds = false)

theorem callsGrow_of_eq (h : next.waits = state.waits) : CallsGrow state next := by
  intro c call hcall
  rw [← h] at hcall
  exact ⟨call, hcall, rfl, rfl, id⟩

theorem callsGrow_of_wake {me : Nat} (h : next.waits = state.waits.map (WaitCall.wake me)) :
    CallsGrow state next := by
  intro c call hcall
  refine ⟨call.wake me, ?_, ?_⟩
  · rw [h, List.getElem?_map, hcall, Option.map_some]
  · unfold WaitCall.wake
    split
    · rename_i hwake
      refine ⟨rfl, rfl, ?_⟩
      intro hholds
      rw [hwake.2] at hholds
      cases hholds
    · exact ⟨rfl, rfl, id⟩

theorem callsGrow_of_append {call : WaitCall} (h : next.waits = state.waits ++ [call]) :
    CallsGrow state next := by
  intro c old hold
  refine ⟨old, ?_, rfl, rfl, id⟩
  rw [h]
  exact getElem?_concat_of_some hold call

theorem callsGrow_of_setStage {index : Nat} {call : WaitCall} {stage : WaitStage}
    (hcall : state.waits[index]? = some call)
    (hstage : call.stage.holds = false → stage.holds = false)
    (h : next.waits = state.waits.set index { call with stage := stage }) :
    CallsGrow state next := by
  intro c old hold
  rw [h, getElem?_setStage hcall]
  split
  · rename_i hc
    rw [hc, hcall] at hold
    cases hold
    exact ⟨_, rfl, rfl, rfl, hstage⟩
  · exact ⟨old, hold, rfl, rfl, id⟩

/-- No step takes a call away or gives it its slot back. -/
theorem AtStep.callsGrow {event : AtEvent} (step : AtStep state event next) :
    CallsGrow state next := by
  cases step with
  | scan hpc => exact callsGrow_of_eq rfl
  | skip hpc hi hidle => exact callsGrow_of_eq rfl
  | count hpc hi hjob ht hflag hsec => exact callsGrow_of_eq rfl
  | commit hpc hi hjob ht hflag hsec => exact callsGrow_of_eq rfl
  | invoke hpc => exact callsGrow_of_eq rfl
  | callbackReturn hpc ht hflag => exact callsGrow_of_wake rfl
  | endScan hpc hi => exact callsGrow_of_eq rfl
  | add hsec hunlocked hpos => exact callsGrow_of_eq rfl
  | refuse h => exact callsGrow_of_eq rfl
  | cancel hjob ht hflag => exact callsGrow_of_wake rfl
  | wait hslot hjob ht halone => exact callsGrow_of_append rfl
  | spurious hcall hstage => exact callsGrow_of_setStage hcall (by rw [hstage]; simp [WaitStage.holds]) rfl
  | resume hcall hstage ht halone =>
    exact callsGrow_of_setStage hcall (by rw [hstage]; simp [WaitStage.holds]) rfl
  | clear hcall hstage hunlocked hjob => exact callsGrow_of_setStage hcall (fun _ => rfl) rfl
  | free hcall hstage ht hfreed => exact callsGrow_of_setStage hcall (fun _ => rfl) rfl

/-- A timer leaves its slot only when a call on it clears the slot. -/
theorem AtStep.inPlace_of_job {event : AtEvent} (step : AtStep state event next) {me pos : Nat}
    (h : state.job pos = some me) : InPlace next me pos := by
  cases step with
  | add hsec hunlocked hpos =>
    left
    show (state.setJob _ _).job pos = _
    rw [setJob_job, if_neg]
    · exact h
    · rintro rfl
      rw [(getFreePosUnlocked_spec hpos).2] at h
      cases h
  | @clear index call hcall hstage hunlocked hjob =>
    rcases eq_or_ne pos call.slot with rfl | hne
    · right
      rw [hjob] at h
      cases h
      refine ⟨{ call with stage := .cleared }, ?_, rfl, rfl, rfl⟩
      apply List.mem_iff_getElem?.mpr
      exact ⟨index, (getElem?_setStage hcall .cleared index).trans (if_pos rfl)⟩
    · left
      show (state.setJob _ _).job pos = _
      rw [setJob_job, if_neg hne]
      exact h
  | scan hpc => exact Or.inl h
  | skip hpc hi hidle => exact Or.inl h
  | count hpc hi hjob ht hflag hsec => exact Or.inl h
  | commit hpc hi hjob ht hflag hsec => exact Or.inl h
  | invoke hpc => exact Or.inl h
  | callbackReturn hpc ht hflag => exact Or.inl h
  | endScan hpc hi => exact Or.inl h
  | refuse hrefusal => exact Or.inl h
  | cancel hjob ht hflag => exact Or.inl h
  | wait hslot hjob ht halone => exact Or.inl h
  | spurious hcall hstage => exact Or.inl h
  | resume hcall hstage ht halone => exact Or.inl h
  | free hcall hstage ht hfreed => exact Or.inl h

/-- A timer that is in its place stays there or is cleared by a call on it. -/
theorem AtStep.inPlace {event : AtEvent} (step : AtStep state event next) {me pos : Nat}
    (h : InPlace state me pos) : InPlace next me pos := by
  rcases h with h | ⟨call, hmem, hslot, hme, hholds⟩
  · exact step.inPlace_of_job h
  · right
    obtain ⟨c, hcall⟩ := List.mem_iff_getElem?.mp hmem
    obtain ⟨call', hcall', hslot', hme', hholds'⟩ := step.callsGrow c call hcall
    exact ⟨call', List.mem_iff_getElem?.mpr ⟨c, hcall'⟩, hslot'.trans hslot, hme'.trans hme,
      hholds' hholds⟩

/-- Only the freeing of a timer is recorded as one. -/
theorem AtStep.freed {event : AtEvent} (step : AtStep state event next)
    (h : ∀ me, state.log.count (.freed me) = if state.isFreed me then 1 else 0) (me : Nat) :
    next.log.count (.freed me) = if next.isFreed me then 1 else 0 := by
  cases step with
  | scan hpc => exact freed_of_advances (h me) (advances_of_eq rfl) rfl rfl (by simp)
  | skip hpc hi hidle =>
    exact freed_of_advances (h me) (advances_of_eq rfl) rfl (List.append_nil _).symm (by simp)
  | count hpc hi hjob ht hflag hsec =>
    exact freed_of_advances (h me) (advances_setTimer ht (by rw [hflag]; rfl) rfl rfl) List.length_set
      (List.append_nil _).symm (by simp)
  | commit hpc hi hjob ht hflag hsec =>
    exact freed_of_advances (h me) (advances_setTimer ht (by rw [hflag]; rfl) rfl rfl) List.length_set
      rfl (by simp)
  | invoke hpc => exact freed_of_advances (h me) (advances_of_eq rfl) rfl rfl (by simp)
  | callbackReturn hpc ht hflag =>
    exact freed_of_advances (h me) (advances_setTimer ht (by rw [hflag]; rfl) rfl rfl) List.length_set
      rfl (by simp)
  | endScan hpc hi => exact freed_of_advances (h me) (advances_of_eq rfl) rfl rfl (by simp)
  | refuse hrefusal =>
    refine freed_of_advances (h me) (advances_of_eq rfl) rfl rfl ?_
    cases hrefusal <;> simp
  | cancel hjob ht hflag =>
    exact freed_of_advances (h me) (advances_setTimer ht (by rw [hflag]; rfl) rfl rfl) List.length_set
      rfl (by simp)
  | wait hslot hjob ht halone => exact freed_of_advances (h me) (advances_of_eq rfl) rfl rfl (by simp)
  | spurious hcall hstage =>
    exact freed_of_advances (h me) (advances_of_eq rfl) rfl (List.append_nil _).symm (by simp)
  | resume hcall hstage ht halone =>
    exact freed_of_advances (h me) (advances_of_eq rfl) rfl (List.append_nil _).symm (by simp)
  | clear hcall hstage hunlocked hjob =>
    exact freed_of_advances (h me) (advances_of_eq rfl) rfl (List.append_nil _).symm (by simp)
  | @add sec pos hsec hunlocked hpos =>
    show (state.log ++ [_]).count _ = if Option.any _ (state.timers ++ [_])[me]? then 1 else 0
    rw [List.count_append, h me, AtState.isFreed]
    rcases Nat.lt_trichotomy me state.timers.length with hlt | heq | hgt
    · rw [List.getElem?_append_left hlt]
      simp
    · rw [heq, List.getElem?_append_right (Nat.le_refl _), Nat.sub_self]
      simp
    · have hlen : (state.timers ++ [(⟨sec, .running, false⟩ : TimerSt)]).length ≤ me := by
        rw [List.length_append]
        exact hgt
      rw [List.getElem?_eq_none_iff.mpr hlen, List.getElem?_eq_none_iff.mpr (by omega)]
      simp
  | @free index call timer hcall hstage ht hfreed =>
    show (state.log ++ [_, _]).count _ = if Option.any _ (state.timers.set _ _)[me]? then 1 else 0
    rw [List.count_append, h me, AtState.isFreed, getElem?_setTimer ht]
    rcases eq_or_ne me call.me with rfl | hne
    · simp [ht, hfreed]
    · simp [hne, hne.symm]

/-- What a step tells with an entry that it records: an addition puts the timer into
its slot, and a scan ends when the handler is past the table. -/
def Tells (state : AtState) (event : AtEvent) (next : AtState) : AtEntry → Prop
  | .added me pos sec scan =>
      next.job pos = some me ∧ me = state.timers.length ∧ scan = state.scans ∧ 0 ≤ sec ∧
        getFreePosUnlocked state = some pos ∧ state.jobUnlocked = true ∧
        event = .add sec true ⟨true, none⟩
  | .scanEnded k =>
      event = .endScan ∧ k = state.scans ∧ ∃ i, state.handler = .scanning i ∧ jobMax ≤ i
  | _ => True

/-- A new entry of the log tells what its step did. -/
theorem AtStep.tells {event : AtEvent} (step : AtStep state event next) {entry : AtEntry}
    (h : entry ∈ next.log) : entry ∈ state.log ∨ Tells state event next entry := by
  have ofAppend : ∀ {entries}, entry ∈ state.log ++ entries →
      (∀ new ∈ entries, Tells state event next new) →
      entry ∈ state.log ∨ Tells state event next entry := by
    intro entries hmem hnew
    exact (List.mem_append.mp hmem).imp_right (hnew entry)
  cases step with
  | scan hpc => exact ofAppend h (by simp [Tells])
  | skip hpc hi hidle => exact Or.inl h
  | count hpc hi hjob ht hflag hsec => exact Or.inl h
  | commit hpc hi hjob ht hflag hsec => exact ofAppend h (by simp [Tells])
  | invoke hpc => exact ofAppend h (by simp [Tells])
  | callbackReturn hpc ht hflag => exact ofAppend h (by simp [Tells])
  | @endScan i hpc hi =>
    refine ofAppend h fun new hnew => ?_
    rw [List.mem_singleton.mp hnew]
    exact ⟨rfl, rfl, i, hpc, Nat.not_lt.mp hi⟩
  | refuse hrefusal =>
    refine ofAppend h ?_
    cases hrefusal <;> simp [Tells]
  | cancel hjob ht hflag => exact ofAppend h (by simp [Tells])
  | wait hslot hjob ht halone => exact ofAppend h (by simp [Tells])
  | spurious hcall hstage => exact Or.inl h
  | resume hcall hstage ht halone => exact Or.inl h
  | clear hcall hstage hunlocked hjob => exact Or.inl h
  | free hcall hstage ht hfreed => exact ofAppend h (by simp [Tells])
  | add hsec hunlocked hpos =>
    refine ofAppend h fun new hnew => ?_
    rw [List.mem_singleton.mp hnew]
    exact ⟨(setJob_job _ _ _).trans (if_pos rfl), rfl, rfl, hsec, hpos, hunlocked, rfl⟩

/-- Every step keeps what the log says: the third round. -/
theorem AtLedger.step {event : AtEvent} (ledger : AtLedger state)
    (step : AtStep state event next) : AtLedger next := by
  refine ⟨step.freed ledger.freed, ?_⟩
  intro me pos sec scan hadded
  rcases step.tells hadded with hold | ⟨hjob, _⟩
  · exact step.inPlace (ledger.placed me pos sec scan hold)
  · exact Or.inl hjob

end Ledger

/-! ## Over every run -/

/-- Every call of `at_waittimer` leaves its loop alone. -/
def LeftAlone (events : List AtEvent) : Prop :=
  Meets atStep (fun state event => leavesAlone state event = true) atInit events

instance (events : List AtEvent) : Decidable (LeftAlone events) :=
  inferInstanceAs (Decidable (Meets _ _ _ _))

/-- The invariant and the log after a run in which every call leaves its loop alone. -/
theorem atRun_inv {events : List AtEvent} (h : LeftAlone events) :
    AtInv (atRun atInit events) ∧ AtLedger (atRun atInit events) := by
  have hinit : AtInv atInit ∧ AtLedger atInit := by
    refine ⟨atInit_inv, ?_, ?_⟩
    · intro me
      rfl
    · intro me pos sec scan hadded
      cases hadded
  refine Meets.run_induction (fun state => AtInv state ∧ AtLedger state) ?_ h hinit
  intro state event next hinv halone hstep
  obtain ⟨inv, ledger⟩ := hinv
  have step := atStep_inv inv halone hstep
  exact ⟨step.inv inv, ledger.step step⟩

/-- What a run must not do to the timers and their table: go wrong, free a timer
twice, or lose a timer that its own waiter has not released. -/
def TimersSafe (state : AtState) : Prop :=
  state.violations = [] ∧ (∀ me, state.log.count (.freed me) ≤ 1) ∧
    ∀ (me pos : Nat) (sec : Int) (scan : Nat),
      AtEntry.added me pos sec scan ∈ state.log → InPlace state me pos

/-- As long as every call of `at_waittimer` leaves its loop with no other call inside
the same timer, no timer is freed twice or touched after it is freed, a slot is
cleared only while it holds the timer that is released, and no timer is lost. -/
theorem atRun_timersSafe (events : List AtEvent) (h : LeftAlone events) :
    TimersSafe (atRun atInit events) := by
  obtain ⟨inv, ledger⟩ := atRun_inv h
  refine ⟨inv.clean, ?_, ledger.placed⟩
  intro me
  rw [ledger.freed me]
  split
  · exact Nat.le_refl 1
  · exact Nat.zero_le 1

/-- A timer is added, waited for, cancelled and released, and its slot is used again. -/
def slotReused : List AtEvent :=
  [.add 5 true ⟨true, none⟩, .wait 0, .cancel 0, .resume 0, .clear 0, .free 0,
    .add 3 true ⟨true, none⟩, .scan, .visit]

theorem atRun_timersSafe_reused : TimersSafe (atRun atInit slotReused) :=
  atRun_timersSafe slotReused (by decide +kernel)

/-- Two calls of `at_waittimer` with the same id: the cancel wakes both and both leave
their loop.  A third thread adds a timer between the two clearings. -/
def twoWaiters : List AtEvent :=
  [.add 5 true ⟨true, none⟩, .wait 0, .wait 0, .cancel 0, .resume 0, .resume 1, .clear 0,
    .free 0, .add 3 true ⟨true, none⟩, .clear 1, .free 1]

/-- The second waiter clears the slot of the timer that was added, which is lost, and
frees the first timer again. -/
theorem atRun_twoWaiters_unsafe :
    (atRun atInit twoWaiters).violations = [.foreignClear 0 0, .doubleFree 0] ∧
      AtEntry.added 1 0 3 0 ∈ (atRun atInit twoWaiters).log ∧
      ¬ InPlace (atRun atInit twoWaiters) 1 0 ∧ ¬ TimersSafe (atRun atInit twoWaiters) := by
  have hviolations :
      (atRun atInit twoWaiters).violations = [.foreignClear 0 0, .doubleFree 0] := by
    decide +kernel
  have hwaits : (atRun atInit twoWaiters).waits =
      [⟨0, 0, .returned⟩, ⟨0, 0, .cleared⟩] := by
    decide +kernel
  refine ⟨hviolations, by decide +kernel, ?_, ?_⟩
  · rintro (hjob | ⟨call, hmem, _, hme, _⟩)
    · revert hjob
      decide +kernel
    · rw [hwaits] at hmem
      simp only [List.mem_cons, List.not_mem_nil, or_false] at hmem
      rcases hmem with rfl | rfl <;> cases hme
  · intro hsafe
    rw [TimersSafe, hviolations] at hsafe
    cases hsafe.1

end LearnApue.Para
