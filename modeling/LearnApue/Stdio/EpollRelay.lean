import LearnApue.Stdio.FsmDriver

set_option autoImplicit false

/-!
# The epoll relay

`adv/epoll/relay.c`: two machines relay bytes between two descriptors, `fsm12`
from the first to the second and `fsm21` the other way.  In every iteration the
loop tells the kernel what it waits for, waits for one event, and drives the
machines that the event concerns.

What the kernel was told last about a descriptor is its registered interest.  The
loop computes an interest for both descriptors but registers only the first one,
so the second one keeps the empty interest with which it was added.  The poll
version of the loop hands both to the kernel every time.
-/

namespace LearnApue.Stdio

open LearnApue.Foundation LearnApue.Foundation.ByteFile

/-! ## The machines -/

/-- The value of a state in the enumeration. -/
def FsmState.value : FsmState → Nat
  | .stateW => 0
  | .stateR => 1
  | .stateAuto => 2
  | .stateT => 3
  | .stateE => 4

/-- What the kernel has for a machine that reads or writes: bytes or the number of bytes
it would take, or `errno`. -/
structure IoAnswers where
  read : Except Int Bytes
  write : Except Int Nat

/-- The answer to the call that a machine makes: no more bytes than there is room for, or
than there are to write. -/
def IoAnswers.answer (io : IoAnswers) (fsm : FsmSt) : Answer :=
  match fsm.state with
  | .stateR => .read (io.read.map fun data => data.take bufsize)
  | .stateW => .write (io.write.map fun ret => min ret fsm.len.toNat)
  | _ => .nothing

/-- The machine behind a call of `fsm_driver`, or nothing when it aborts. -/
def driveFsm (fsm : FsmSt) (io : IoAnswers) : Option (FsmSt × List Call) :=
  fsmDriver fsm (io.answer fsm)

/-- A machine before its first read. -/
def fsmStart (sfd dfd : Int) : FsmSt := ⟨.stateR, sfd, dfd, 0, 0, Buffer.zeros bufsize, none⟩

/-! ## The kernel's interest list -/

/-- `EPOLLIN`. -/
def epollIn : UInt32 := 0x001

/-- `EPOLLOUT`. -/
def epollOut : UInt32 := 0x004

/-- `struct epoll_event`. -/
structure EpollEvent where
  fd : Int
  events : UInt32
deriving DecidableEq, Repr

/-- What an epoll descriptor knows: the registered descriptors and the events of
interest on each. -/
abbrev Interest := Int → Option UInt32

/-- `epoll_ctl` with `EPOLL_CTL_ADD`, which fails on a registered descriptor. -/
def epollCtlAdd (interest : Interest) (fd : Int) (events : UInt32) : Interest :=
  fun other => if other = fd then some ((interest fd).getD events) else interest other

/-- `epoll_ctl` with `EPOLL_CTL_MOD`, which fails on any other descriptor. -/
def epollCtlMod (interest : Interest) (fd : Int) (events : UInt32) : Interest :=
  fun other => if other = fd then (interest fd).map fun _ => events else interest other

/-! ## The loop -/

/-- Where the loop stands: at its head, in `epoll_wait`, behind it, or the
program left it, exited or aborted. -/
inductive RelayAt where
  | head
  | waiting
  | driving
  | left
  | exited
  | aborted
deriving DecidableEq, Repr

/-- The locals of `relay`, the interest list of `epollfd` and the calls that the machines
made. -/
structure RelaySt where
  fd1 : Int
  fd2 : Int
  fsm12 : FsmSt
  fsm21 : FsmSt
  ev : EpollEvent
  interest : Interest
  calls : List Call
  place : RelayAt

/-- `relay` in front of its loop. -/
def relayStart (fd1 fd2 : Int) : RelaySt where
  fd1 := fd1
  fd2 := fd2
  fsm12 := fsmStart fd1 fd2
  fsm21 := fsmStart fd2 fd1
  ev := ⟨fd2, 0⟩
  interest := epollCtlAdd (epollCtlAdd (fun _ => none) fd1 0) fd2 0
  calls := []
  place := .head

/-- The events on `fd1` that the machines need. -/
def RelaySt.events1 (relay : RelaySt) : UInt32 :=
  (if relay.fsm12.state = .stateR then epollIn else 0) |||
    (if relay.fsm21.state = .stateW then epollOut else 0)

/-- The events on `fd2` that the machines need. -/
def RelaySt.events2 (relay : RelaySt) : UInt32 :=
  (if relay.fsm12.state = .stateW then epollOut else 0) |||
    (if relay.fsm21.state = .stateR then epollIn else 0)

/-- What the loop does before it waits: it registers the interest in `fd1` and
puts the one in `fd2` into `ev`. -/
def RelaySt.register (relay : RelaySt) : RelaySt :=
  { relay with
    interest := epollCtlMod relay.interest relay.fd1 relay.events1
    ev := ⟨relay.fd2, relay.events2⟩ }

/-- `fsm12.state != STATE_T || fsm21.state != STATE_T`. -/
def RelaySt.runs (relay : RelaySt) : Bool :=
  relay.fsm12.state ≠ .stateT || relay.fsm21.state ≠ .stateT

/-- `fsm12.state < STATE_AUTO || fsm21.state < STATE_AUTO`. -/
def RelaySt.waits (relay : RelaySt) : Bool :=
  relay.fsm12.state.value < FsmState.stateAuto.value ||
    relay.fsm21.state.value < FsmState.stateAuto.value

/-- The condition under which the loop drives `fsm12`. -/
def RelaySt.drives12 (relay : RelaySt) : Bool :=
  (relay.ev.fd = relay.fd1 && relay.ev.events &&& epollIn ≠ 0) ||
    (relay.ev.fd = relay.fd2 && relay.ev.events &&& epollOut ≠ 0) ||
    relay.fsm12.state.value > FsmState.stateAuto.value

/-- The condition under which the loop drives `fsm21`.  In its second part the
comparison is an operand of `&`. -/
def RelaySt.drives21 (relay : RelaySt) : Bool :=
  (relay.ev.fd = relay.fd2 && relay.ev.events &&& epollIn ≠ 0) ||
    ((if relay.ev.fd = relay.fd1 then 1 else 0) &&& relay.ev.events) &&& epollOut ≠ 0 ||
    relay.fsm21.state.value > FsmState.stateAuto.value

/-- The loop drives `fsm12`, or leaves it as it is. -/
def RelaySt.drive12 (relay : RelaySt) (io : IoAnswers) : RelaySt :=
  if relay.drives12 then
    match driveFsm relay.fsm12 io with
    | none => { relay with place := .aborted }
    | some (fsm, calls) => { relay with fsm12 := fsm, calls := relay.calls ++ calls }
  else relay

/-- The loop drives `fsm21`, or leaves it as it is, and goes back to its head. -/
def RelaySt.drive21 (relay : RelaySt) (io : IoAnswers) : RelaySt :=
  if relay.place = .aborted then relay
  else if relay.drives21 then
    match driveFsm relay.fsm21 io with
    | none => { relay with place := .aborted }
    | some (fsm, calls) =>
        { relay with fsm21 := fsm, calls := relay.calls ++ calls, place := .head }
  else { relay with place := .head }

/-- What happens to the loop: it goes from its head to `epoll_wait` or past it,
`epoll_wait` fails or delivers an event, or the machines are driven with what
`read` and `write` answer. -/
inductive RelayInput where
  | loop
  | failed (errno : Int)
  | delivered (ev : EpollEvent)
  | drive (io12 io21 : IoAnswers)

/-- One input, where the loop stands at a place that takes it. -/
def relayStep (relay : RelaySt) (input : RelayInput) : Option RelaySt :=
  match relay.place, input with
  | .head, .loop =>
      if relay.runs then
        some { relay.register with place := if relay.register.waits then .waiting else .driving }
      else some { relay with place := .left }
  | .waiting, .failed errno =>
      if errno = eintr then some relay else some { relay with place := .exited }
  | .waiting, .delivered ev => some { relay with ev := ev, place := .driving }
  | .driving, .drive io12 io21 => some ((relay.drive12 io12).drive21 io21)
  | _, _ => none

/-- The relay after a sequence of inputs. -/
def relayRun (relay : RelaySt) (inputs : List RelayInput) : RelaySt :=
  EventMachine.run relayStep relay inputs

/-! ## What the machines need -/

/-- The registered interest in a descriptor contains an event. -/
def RelaySt.Registered (relay : RelaySt) (fd : Int) (event : UInt32) : Prop :=
  ∃ events, relay.interest fd = some events ∧ events &&& event ≠ 0

/-- The registered interest contains what the machines need. -/
structure RelaySt.InterestRight (relay : RelaySt) : Prop where
  read12 : relay.fsm12.state = .stateR → relay.Registered relay.fd1 epollIn
  write21 : relay.fsm21.state = .stateW → relay.Registered relay.fd1 epollOut
  write12 : relay.fsm12.state = .stateW → relay.Registered relay.fd2 epollOut
  read21 : relay.fsm21.state = .stateR → relay.Registered relay.fd2 epollIn

theorem events1_in {relay : RelaySt} (h : relay.fsm12.state = .stateR) :
    relay.events1 &&& epollIn ≠ 0 := by
  unfold RelaySt.events1
  rw [if_pos h]
  split
  · decide
  · decide

theorem events1_out {relay : RelaySt} (h : relay.fsm21.state = .stateW) :
    relay.events1 &&& epollOut ≠ 0 := by
  unfold RelaySt.events1
  rw [if_pos h]
  split
  · decide
  · decide

theorem events2_out {relay : RelaySt} (h : relay.fsm12.state = .stateW) :
    relay.events2 &&& epollOut ≠ 0 := by
  unfold RelaySt.events2
  rw [if_pos h]
  split
  · decide
  · decide

theorem events2_in {relay : RelaySt} (h : relay.fsm21.state = .stateR) :
    relay.events2 &&& epollIn ≠ 0 := by
  unfold RelaySt.events2
  rw [if_pos h]
  split
  · decide
  · decide

/-! ## What one input can do -/

/-- What the loop keeps: both descriptors are registered, the second one with the
empty interest it was added with, and in `epoll_wait` the first one with what
the machines need. -/
structure RelayInv (fd1 fd2 : Int) (relay : RelaySt) : Prop where
  same1 : relay.fd1 = fd1
  same2 : relay.fd2 = fd2
  interest1 : ∃ events, relay.interest fd1 = some events
  interest2 : relay.interest fd2 = some 0
  waiting : relay.place = .waiting → relay.interest fd1 = some relay.events1

theorem drive12_keeps (relay : RelaySt) (io : IoAnswers) :
    (relay.drive12 io).fd1 = relay.fd1 ∧ (relay.drive12 io).fd2 = relay.fd2 ∧
      (relay.drive12 io).interest = relay.interest ∧ (relay.drive12 io).ev = relay.ev ∧
      (relay.drive12 io).fsm21 = relay.fsm21 := by
  unfold RelaySt.drive12
  split
  · split
    · exact ⟨rfl, rfl, rfl, rfl, rfl⟩
    · exact ⟨rfl, rfl, rfl, rfl, rfl⟩
  · exact ⟨rfl, rfl, rfl, rfl, rfl⟩

theorem drive21_keeps (relay : RelaySt) (io : IoAnswers) :
    (relay.drive21 io).fd1 = relay.fd1 ∧ (relay.drive21 io).fd2 = relay.fd2 ∧
      (relay.drive21 io).interest = relay.interest ∧
      ((relay.drive21 io).place = .head ∨ (relay.drive21 io).place = .aborted) := by
  unfold RelaySt.drive21
  split
  · rename_i haborted
    exact ⟨rfl, rfl, rfl, Or.inr haborted⟩
  · split
    · split
      · exact ⟨rfl, rfl, rfl, Or.inr rfl⟩
      · exact ⟨rfl, rfl, rfl, Or.inl rfl⟩
    · exact ⟨rfl, rfl, rfl, Or.inl rfl⟩

/-- Everything an input can do. -/
theorem relayStep_cases {relay next : RelaySt} {input : RelayInput}
    (h : relayStep relay input = some next) :
    (relay.place = .head ∧ relay.runs = true ∧
      next = { relay.register with
        place := if relay.register.waits then .waiting else .driving }) ∨
    (relay.place = .head ∧ relay.runs = false ∧ next = { relay with place := .left }) ∨
    (relay.place = .waiting ∧ (next = relay ∨ next = { relay with place := .exited })) ∨
    (∃ ev, relay.place = .waiting ∧ input = .delivered ev ∧
      next = { relay with ev := ev, place := .driving }) ∨
    ∃ io12 io21, relay.place = .driving ∧ next = (relay.drive12 io12).drive21 io21 := by
  unfold relayStep at h
  split at h
  · rename_i hplace
    split at h
    · rename_i hruns
      exact Or.inl ⟨hplace, hruns, (Option.some.inj h).symm⟩
    · rename_i hruns
      exact Or.inr (Or.inl ⟨hplace, Bool.eq_false_iff.mpr hruns, (Option.some.inj h).symm⟩)
  · rename_i errno hplace
    right
    right
    left
    refine ⟨hplace, ?_⟩
    split at h
    · exact Or.inl (Option.some.inj h).symm
    · exact Or.inr (Option.some.inj h).symm
  · rename_i ev hplace
    right
    right
    right
    left
    exact ⟨ev, hplace, rfl, (Option.some.inj h).symm⟩
  · rename_i io12 io21 hplace
    right
    right
    right
    right
    exact ⟨io12, io21, hplace, (Option.some.inj h).symm⟩
  · cases h

theorem relayInv_step {fd1 fd2 : Int} (hne : fd1 ≠ fd2) {relay next : RelaySt}
    {input : RelayInput} (hinv : RelayInv fd1 fd2 relay) (h : relayStep relay input = some next) :
    RelayInv fd1 fd2 next := by
  obtain ⟨-, -, rfl⟩ | ⟨-, -, rfl⟩ | ⟨hplace, rfl | rfl⟩ | ⟨ev, -, -, rfl⟩ |
    ⟨io12, io21, -, rfl⟩ := relayStep_cases h
  · obtain ⟨events, hevents⟩ := hinv.interest1
    have hregister : relay.register.interest fd1 = some relay.events1 := by
      simp only [RelaySt.register, epollCtlMod, hinv.same1, if_true, hevents, Option.map_some]
    refine ⟨hinv.same1, hinv.same2, ⟨_, hregister⟩, ?_, fun _ => hregister⟩
    show epollCtlMod relay.interest relay.fd1 relay.events1 fd2 = some 0
    rw [hinv.same1, epollCtlMod, if_neg hne.symm, hinv.interest2]
  · exact ⟨hinv.same1, hinv.same2, hinv.interest1, hinv.interest2, nofun⟩
  · exact hinv
  · exact ⟨hinv.same1, hinv.same2, hinv.interest1, hinv.interest2, nofun⟩
  · exact ⟨hinv.same1, hinv.same2, hinv.interest1, hinv.interest2, nofun⟩
  · obtain ⟨hfd1, hfd2, hinterest, -, -⟩ := drive12_keeps relay io12
    obtain ⟨hfd1', hfd2', hinterest', hplace⟩ := drive21_keeps (relay.drive12 io12) io21
    rw [hfd1] at hfd1'
    rw [hfd2] at hfd2'
    rw [hinterest] at hinterest'
    refine ⟨hfd1'.trans hinv.same1, hfd2'.trans hinv.same2, ?_, ?_, ?_⟩
    · rw [hinterest']
      exact hinv.interest1
    · rw [hinterest']
      exact hinv.interest2
    · intro hwaiting
      rw [hwaiting] at hplace
      rcases hplace with hhead | haborted
      · cases hhead
      · cases haborted

theorem relayInv_start {fd1 fd2 : Int} (hne : fd1 ≠ fd2) :
    RelayInv fd1 fd2 (relayStart fd1 fd2) := by
  refine ⟨rfl, rfl, ⟨0, ?_⟩, ?_, nofun⟩
  · show epollCtlAdd _ fd2 0 fd1 = some 0
    rw [epollCtlAdd, if_neg hne, epollCtlAdd, if_pos rfl]
    rfl
  · show epollCtlAdd _ fd2 0 fd2 = some 0
    rw [epollCtlAdd, if_pos rfl, epollCtlAdd, if_neg hne.symm]
    rfl

theorem relayInv_run {fd1 fd2 : Int} (hne : fd1 ≠ fd2) (inputs : List RelayInput) :
    RelayInv fd1 fd2 (relayRun (relayStart fd1 fd2) inputs) :=
  EventMachine.run_induction relayStep (fun _ _ _ hinv h => relayInv_step hne hinv h) inputs
    (relayInv_start hne)

/-! ## The registered interest -/

/-- In `epoll_wait` the registered interest is right exactly when no machine
needs an event on the second descriptor. -/
theorem RelayInv.interestRight_iff {fd1 fd2 : Int} {relay : RelaySt}
    (hinv : RelayInv fd1 fd2 relay) (hwaiting : relay.place = .waiting) :
    relay.InterestRight ↔ relay.fsm12.state ≠ .stateW ∧ relay.fsm21.state ≠ .stateR := by
  have hfirst : ∀ event, relay.events1 &&& event ≠ 0 → relay.Registered relay.fd1 event := by
    intro event hevent
    refine ⟨relay.events1, ?_, hevent⟩
    rw [hinv.same1]
    exact hinv.waiting hwaiting
  have hsecond : ∀ event, ¬ relay.Registered relay.fd2 event := by
    rintro event ⟨events, hevents, hevent⟩
    rw [hinv.same2, hinv.interest2] at hevents
    cases hevents
    exact hevent (UInt32.zero_and)
  constructor
  · intro hright
    exact ⟨fun hstate => hsecond _ (hright.write12 hstate),
      fun hstate => hsecond _ (hright.read21 hstate)⟩
  · rintro ⟨hwrite, hread⟩
    exact ⟨fun hstate => hfirst _ (events1_in hstate), fun hstate => hfirst _ (events1_out hstate),
      fun hstate => absurd hstate hwrite, fun hstate => absurd hstate hread⟩

/-- The first step of the loop leads to a wait for which the interest that `fsm21`
needs is not registered. -/
theorem first_wait {fd1 fd2 : Int} (hne : fd1 ≠ fd2) {input : RelayInput} {next : RelaySt}
    (h : relayStep (relayStart fd1 fd2) input = some next) :
    next.place = .waiting ∧ ¬ next.InterestRight := by
  have hnext := relayInv_step hne (relayInv_start hne) h
  cases input with
  | loop =>
    cases h
    refine ⟨rfl, fun hright => ?_⟩
    exact ((hnext.interestRight_iff rfl).mp hright).2 rfl
  | failed errno => cases h
  | delivered ev => cases h
  | drive io12 io21 => cases h

/-- The interest of the epoll relay.  Whatever is delivered, read and written:
whenever the loop is in `epoll_wait`, the registered interest is right exactly
when `fsm12` is not writing and `fsm21` is not reading.  The first step of every
run leads to a wait at which it is wrong. -/
theorem epoll_relay_interest {fd1 fd2 : Int} (hne : fd1 ≠ fd2) :
    (∀ inputs, (relayRun (relayStart fd1 fd2) inputs).place = .waiting →
      ((relayRun (relayStart fd1 fd2) inputs).InterestRight ↔
        (relayRun (relayStart fd1 fd2) inputs).fsm12.state ≠ .stateW ∧
          (relayRun (relayStart fd1 fd2) inputs).fsm21.state ≠ .stateR)) ∧
    ∀ input next, relayStep (relayStart fd1 fd2) input = some next →
      next.place = .waiting ∧ ¬ next.InterestRight :=
  ⟨fun inputs => (relayInv_run hne inputs).interestRight_iff, fun _ _ h => first_wait hne h⟩

theorem epoll_relay_interest_three_four :
    (3 : Int) ≠ 4 ∧ ∀ input next, relayStep (relayStart 3 4) input = some next →
      next.place = .waiting ∧ ¬ next.InterestRight :=
  ⟨by decide, (@epoll_relay_interest 3 4 (by decide)).2⟩

/-- Both machines start reading, and nothing is registered for the second
descriptor when the loop waits for the first time. -/
theorem epoll_relay_interest_counterexample :
    ¬ ∀ inputs, (relayRun (relayStart 3 4) inputs).place = .waiting →
      (relayRun (relayStart 3 4) inputs).InterestRight := by
  intro hright
  obtain ⟨events, hevents, hevent⟩ := (hright [.loop] rfl).read21 rfl
  have hzero : events = 0 := Option.some.inj (hevents.symm.trans rfl)
  rw [hzero] at hevent
  exact hevent rfl

/-! ## The poll version -/

/-- What the poll version does before it waits: `poll` is told the events on both
descriptors. -/
def RelaySt.pollRegister (relay : RelaySt) : RelaySt :=
  { relay with interest := fun fd =>
      if fd = relay.fd1 then some relay.events1
      else if fd = relay.fd2 then some relay.events2
      else none }

/-- `poll` waits for what the machines need, in every state of them. -/
theorem poll_relay_interest {relay : RelaySt} (hne : relay.fd1 ≠ relay.fd2) :
    relay.pollRegister.InterestRight := by
  have hfirst : relay.pollRegister.interest relay.fd1 = some relay.events1 := if_pos rfl
  have hsecond : relay.pollRegister.interest relay.fd2 = some relay.events2 := by
    show (if _ then _ else _) = _
    rw [if_neg hne.symm, if_pos rfl]
  exact ⟨fun h => ⟨_, hfirst, events1_in h⟩, fun h => ⟨_, hfirst, events1_out h⟩,
    fun h => ⟨_, hsecond, events2_out h⟩, fun h => ⟨_, hsecond, events2_in h⟩⟩

/-! ## What the missing registration does to a run -/

/-- The kernel reports that a descriptor is ready for nothing but what is
registered on it. -/
def Promised (relay : RelaySt) : RelayInput → Prop
  | .delivered ev =>
      (ev.events &&& epollIn ≠ 0 → relay.Registered ev.fd epollIn) ∧
        (ev.events &&& epollOut ≠ 0 → relay.Registered ev.fd epollOut)
  | _ => True

/-- The loop waits for what never comes: `fsm21` is at its first read, nothing was
written, and an event that arrived drives `fsm12` only while it reads. -/
structure RelayStuck (fd1 fd2 : Int) (relay : RelaySt) : Prop extends RelayInv fd1 fd2 relay where
  reads21 : relay.fsm21.state = .stateR
  silent : ∀ call ∈ relay.calls, call.written = []
  stays : relay.place ≠ .left
  event : relay.place = .driving → (relay.ev.fd = fd2 → relay.ev.events &&& epollIn = 0 ∧
    relay.ev.events &&& epollOut = 0) ∧
    (relay.ev.fd = fd1 → relay.ev.events &&& epollIn ≠ 0 → relay.fsm12.state = .stateR)

theorem reads_of_events1 {relay : RelaySt} (h : relay.events1 &&& epollIn ≠ 0) :
    relay.fsm12.state = .stateR := by
  by_contra hstate
  apply h
  unfold RelaySt.events1
  rw [if_neg hstate]
  split
  · decide
  · decide

/-- The second part of the condition is never true: the comparison has no bit in
common with `EPOLLOUT`. -/
theorem and_epollOut (ready : Prop) [Decidable ready] (events : UInt32) :
    ((if ready then 1 else 0) &&& events) &&& epollOut = 0 := by
  rw [UInt32.and_assoc, UInt32.and_comm events, ← UInt32.and_assoc]
  have hone : (if ready then 1 else 0) &&& epollOut = 0 := by
    split
    · decide
    · decide
  rw [hone, UInt32.zero_and]

/-- A machine that does not write makes no call that writes. -/
theorem written_of_not_writing {fsm after : FsmSt} {io : IoAnswers} {calls : List Call}
    (h : driveFsm fsm io = some (after, calls)) (hstate : fsm.state ≠ .stateW) :
    ∀ call ∈ calls, call.written = [] := by
  unfold driveFsm fsmDriver at h
  split at h
  · cases h
    exact List.forall_mem_singleton.mpr rfl
  · split at h
    · cases h
      exact List.forall_mem_singleton.mpr rfl
    · cases h
  · exact absurd ‹_› hstate
  · exact absurd ‹_› hstate
  · cases h
    exact List.forall_mem_singleton.mpr rfl
  · cases h
    exact List.forall_mem_nil _
  · cases h

/-- An event that the kernel may report concerns `fsm12` only while it reads. -/
theorem RelayStuck.drive12 {fd1 fd2 : Int} {relay : RelaySt} (hstuck : RelayStuck fd1 fd2 relay)
    (hplace : relay.place = .driving) (io : IoAnswers) :
    ∀ call ∈ (relay.drive12 io).calls, call.written = [] := by
  obtain ⟨hsecond, hfirst⟩ := hstuck.event hplace
  unfold RelaySt.drive12
  split
  · rename_i hdrives
    split
    · exact hstuck.silent
    · rename_i fsm calls hdriver
      intro call hcall
      rcases List.mem_append.mp hcall with hold | hnew
      · exact hstuck.silent call hold
      · refine written_of_not_writing hdriver (fun hstate => ?_) call hnew
        simp only [RelaySt.drives12, Bool.or_eq_true, Bool.and_eq_true, decide_eq_true_eq,
          hstate] at hdrives
        obtain (⟨hfd, hin⟩ | ⟨hfd, hout⟩) | hend := hdrives
        · rw [hfirst (hfd.trans hstuck.same1) hin] at hstate
          cases hstate
        · exact hout (hsecond (hfd.trans hstuck.same2)).2
        · exact absurd hend (by decide)
  · exact hstuck.silent

/-- No event that the kernel may report concerns `fsm21`. -/
theorem RelayStuck.drives21 {fd1 fd2 : Int} {relay : RelaySt} (hstuck : RelayStuck fd1 fd2 relay)
    (hplace : relay.place = .driving) (io : IoAnswers) : (relay.drive12 io).drives21 = false := by
  obtain ⟨hfd1, hfd2, -, hev, hfsm⟩ := drive12_keeps relay io
  obtain ⟨hsecond, -⟩ := hstuck.event hplace
  rw [← Bool.not_eq_true]
  intro hdrives
  simp only [RelaySt.drives21, hfd1, hfd2, hev, hfsm, hstuck.reads21, Bool.or_eq_true,
    Bool.and_eq_true, decide_eq_true_eq, and_epollOut] at hdrives
  obtain (⟨hfd, hin⟩ | hout) | hend := hdrives
  · exact hin (hsecond (hfd.trans hstuck.same2)).1
  · exact hout rfl
  · exact absurd hend (by decide)

theorem RelayStuck.step {fd1 fd2 : Int} (hne : fd1 ≠ fd2) {relay next : RelaySt}
    {input : RelayInput} (hstuck : RelayStuck fd1 fd2 relay) (hpromised : Promised relay input)
    (h : relayStep relay input = some next) : RelayStuck fd1 fd2 next := by
  have hinv := relayInv_step hne hstuck.toRelayInv h
  have hreads := hstuck.reads21
  obtain ⟨-, -, rfl⟩ | ⟨-, hruns, rfl⟩ | ⟨hplace, rfl | rfl⟩ | ⟨ev, hplace, rfl, rfl⟩ |
    ⟨io12, io21, hplace, rfl⟩ := relayStep_cases h
  · have hwaits : relay.register.waits = true := by
      show (_ || decide (relay.fsm21.state.value < _)) = true
      rw [hreads]
      exact Bool.or_true _
    refine ⟨hinv, hreads, hstuck.silent, ?_, ?_⟩
    · rw [hwaits]
      exact nofun
    · rw [hwaits]
      exact nofun
  · simp only [RelaySt.runs, hreads] at hruns
    cases (Bool.or_eq_false_iff.mp hruns).2
  · exact hstuck
  · exact ⟨hinv, hreads, hstuck.silent, nofun, nofun⟩
  · obtain ⟨hin, hout⟩ := hpromised
    refine ⟨hinv, hreads, hstuck.silent, nofun, fun _ => ⟨fun hfd => ?_, fun hfd hevent => ?_⟩⟩
    · have hnone : ∀ event, ¬ relay.Registered ev.fd event := by
        rintro event ⟨events, hevents, hevent⟩
        rw [show ev.fd = fd2 from hfd, hstuck.interest2] at hevents
        cases hevents
        exact hevent UInt32.zero_and
      exact ⟨by_contra fun hevent => hnone _ (hin hevent),
        by_contra fun hevent => hnone _ (hout hevent)⟩
    · obtain ⟨events, hevents, hregistered⟩ := hin hevent
      rw [show ev.fd = fd1 from hfd, hstuck.waiting hplace] at hevents
      cases hevents
      exact reads_of_events1 hregistered
  · obtain ⟨-, -, -, -, hfsm⟩ := drive12_keeps relay io12
    obtain ⟨-, -, -, hafter⟩ := drive21_keeps (relay.drive12 io12) io21
    have hdrives := hstuck.drives21 hplace io12
    have hkept : ((relay.drive12 io12).drive21 io21).fsm21 = relay.fsm21 ∧
        ((relay.drive12 io12).drive21 io21).calls = (relay.drive12 io12).calls := by
      unfold RelaySt.drive21
      rw [hdrives]
      split
      · exact ⟨hfsm, rfl⟩
      · exact ⟨hfsm, rfl⟩
    refine ⟨hinv, ?_, ?_, ?_, ?_⟩
    · rw [hkept.1]
      exact hreads
    · rw [hkept.2]
      exact hstuck.drive12 hplace io12
    · rintro hleft
      rw [hleft] at hafter
      rcases hafter with hhead | haborted
      · cases hhead
      · cases haborted
    · intro hdriving
      rw [hdriving] at hafter
      rcases hafter with hhead | haborted
      · cases hhead
      · cases haborted

/-- Where the kernel reports nothing but what is registered, the relay never
writes a byte, never reads from the second descriptor and never ends its loop. -/
theorem epoll_relay_stuck {fd1 fd2 : Int} (hne : fd1 ≠ fd2) {inputs : List RelayInput}
    (hpromised : EventMachine.Meets relayStep Promised (relayStart fd1 fd2) inputs) :
    (∀ call ∈ (relayRun (relayStart fd1 fd2) inputs).calls, call.written = []) ∧
      (relayRun (relayStart fd1 fd2) inputs).fsm21.state = .stateR ∧
      (relayRun (relayStart fd1 fd2) inputs).place ≠ .left := by
  have hstart : RelayStuck fd1 fd2 (relayStart fd1 fd2) :=
    ⟨relayInv_start hne, rfl, fun call hcall => (nomatch hcall), nofun, nofun⟩
  have hstuck : RelayStuck fd1 fd2 (relayRun (relayStart fd1 fd2) inputs) :=
    hpromised.run_induction (RelayStuck fd1 fd2)
      (fun _ _ _ hstuck hinput h => hstuck.step hne hinput h) hstart
  exact ⟨hstuck.silent, hstuck.reads21, hstuck.stays⟩

end LearnApue.Stdio
