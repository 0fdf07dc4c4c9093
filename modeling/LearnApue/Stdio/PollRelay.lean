import LearnApue.Stdio.EpollRelay

set_option autoImplicit false

/-!
# The poll relay

`adv/poll/relay.c` relays with the machines of the epoll version.  In every
iteration it asks `poll` for what the machines need, and drives a machine when
the results show `POLLIN` or `POLLOUT` where the machine waits for it.  `poll` also
reports `POLLERR`, `POLLHUP` and `POLLNVAL`, for which nobody asked and which no
condition of the loop tests.
-/

namespace LearnApue.Stdio.Poll

open LearnApue.Foundation

/-! ## The transcription -/

/-- `POLLIN`. -/
def pollIn : UInt16 := 0x001

/-- `POLLOUT`. -/
def pollOut : UInt16 := 0x004

/-- `POLLERR`. -/
def pollErr : UInt16 := 0x008

/-- `POLLHUP`. -/
def pollHup : UInt16 := 0x010

/-- `POLLNVAL`. -/
def pollNval : UInt16 := 0x020

/-- `struct pollfd`. -/
structure PollFd where
  fd : Int
  events : UInt16
  revents : UInt16
deriving DecidableEq

/-- Where the loop stands: at its head, in `poll`, behind it, or the program left
it, exited or aborted. -/
inductive RelayAt where
  | head
  | polling
  | driving
  | left
  | exited
  | aborted
deriving DecidableEq, Repr

/-- The locals of `relay`, and how often it has called `fsm_driver`. -/
structure RelaySt where
  fsm12 : FsmSt
  fsm21 : FsmSt
  fds0 : PollFd
  fds1 : PollFd
  driverCalls : Nat
  place : RelayAt
deriving DecidableEq

/-- `relay` in front of its loop. -/
def relayStart (fd1 fd2 : Int) : RelaySt :=
  ⟨fsmStart fd1 fd2, fsmStart fd2 fd1, ⟨fd1, 0, 0⟩, ⟨fd2, 0, 0⟩, 0, .head⟩

/-- The events that the machines need on the first descriptor. -/
def RelaySt.events0 (relay : RelaySt) : UInt16 :=
  (if relay.fsm12.state = .stateR then pollIn else 0) |||
    (if relay.fsm21.state = .stateW then pollOut else 0)

/-- The events that the machines need on the second descriptor. -/
def RelaySt.events1 (relay : RelaySt) : UInt16 :=
  (if relay.fsm12.state = .stateW then pollOut else 0) |||
    (if relay.fsm21.state = .stateR then pollIn else 0)

/-- What the loop asks `poll` for. -/
def RelaySt.ask (relay : RelaySt) : RelaySt :=
  { relay with
    fds0 := { relay.fds0 with events := relay.events0 }
    fds1 := { relay.fds1 with events := relay.events1 } }

/-- `fsm12.state != STATE_T || fsm21.state != STATE_T`. -/
def RelaySt.runs (relay : RelaySt) : Bool :=
  relay.fsm12.state ≠ .stateT || relay.fsm21.state ≠ .stateT

/-- `fsm12.state < STATE_AUTO || fsm21.state < STATE_AUTO`. -/
def RelaySt.waits (relay : RelaySt) : Bool :=
  relay.fsm12.state.value < FsmState.stateAuto.value ||
    relay.fsm21.state.value < FsmState.stateAuto.value

/-- The condition under which the loop drives `fsm12`. -/
def RelaySt.drives12 (relay : RelaySt) : Bool :=
  relay.fds0.revents &&& pollIn ≠ 0 || relay.fds1.revents &&& pollOut ≠ 0 ||
    relay.fsm12.state.value > FsmState.stateAuto.value

/-- The condition under which the loop drives `fsm21`. -/
def RelaySt.drives21 (relay : RelaySt) : Bool :=
  relay.fds0.revents &&& pollOut ≠ 0 || relay.fds1.revents &&& pollIn ≠ 0 ||
    relay.fsm21.state.value > FsmState.stateAuto.value

/-- The loop drives `fsm12`, or leaves it as it is. -/
def RelaySt.drive12 (relay : RelaySt) (io : IoAnswers) : RelaySt :=
  if relay.drives12 then
    match driveFsm relay.fsm12 io with
    | none => { relay with driverCalls := relay.driverCalls + 1, place := .aborted }
    | some (fsm, _) => { relay with driverCalls := relay.driverCalls + 1, fsm12 := fsm }
  else relay

/-- The loop drives `fsm21`, or leaves it as it is, and goes back to its head. -/
def RelaySt.drive21 (relay : RelaySt) (io : IoAnswers) : RelaySt :=
  if relay.place = .aborted then relay
  else if relay.drives21 then
    match driveFsm relay.fsm21 io with
    | none => { relay with driverCalls := relay.driverCalls + 1, place := .aborted }
    | some (fsm, _) =>
        { relay with driverCalls := relay.driverCalls + 1, fsm21 := fsm, place := .head }
  else { relay with place := .head }

/-- What `poll` may report on a descriptor: what was asked for, and the three that
are always reported. -/
def Reportable (events revents : UInt16) : Prop :=
  revents &&& (events ||| pollErr ||| pollHup ||| pollNval) = revents

instance (events revents : UInt16) : Decidable (Reportable events revents) :=
  inferInstanceAs (Decidable (_ = _))

/-- What `poll` may deliver with a positive count. -/
def RelaySt.Deliverable (relay : RelaySt) (revents0 revents1 : UInt16) : Prop :=
  Reportable relay.fds0.events revents0 ∧ Reportable relay.fds1.events revents1 ∧
    (revents0 ≠ 0 ∨ revents1 ≠ 0)

instance (relay : RelaySt) (revents0 revents1 : UInt16) :
    Decidable (relay.Deliverable revents0 revents1) := inferInstanceAs (Decidable (_ ∧ _))

/-- What happens to the loop: it goes from its head to `poll` or past it, `poll`
fails or delivers results, or the machines are driven with what `read` and `write`
answer. -/
inductive RelayInput where
  | loop
  | failed (errno : Int)
  | delivered (revents0 revents1 : UInt16)
  | drive (io12 io21 : IoAnswers)

/-- One input, where the loop stands at a place that takes it. -/
def relayStep (relay : RelaySt) (input : RelayInput) : Option RelaySt :=
  match relay.place, input with
  | .head, .loop =>
      if relay.runs then
        some { relay.ask with place := if relay.ask.waits then .polling else .driving }
      else some { relay with place := .left }
  | .polling, .failed errno =>
      if errno = eintr then some relay else some { relay with place := .exited }
  | .polling, .delivered revents0 revents1 =>
      if relay.Deliverable revents0 revents1 then
        some { relay with
          fds0 := { relay.fds0 with revents := revents0 }
          fds1 := { relay.fds1 with revents := revents1 }
          place := .driving }
      else none
  | .driving, .drive io12 io21 => some ((relay.drive12 io12).drive21 io21)
  | _, _ => none

/-- The relay after a sequence of inputs. -/
def relayRun (relay : RelaySt) (inputs : List RelayInput) : RelaySt :=
  EventMachine.run relayStep relay inputs

/-! ## Results and machines -/

/-- The results contain an event that was asked for. -/
def RelaySt.Asked (relay : RelaySt) (revents0 revents1 : UInt16) : Prop :=
  revents0 &&& relay.fds0.events ≠ 0 ∨ revents1 &&& relay.fds1.events ≠ 0

/-- Both machines read or write. -/
def RelaySt.Open (relay : RelaySt) : Prop :=
  (relay.fsm12.state = .stateR ∨ relay.fsm12.state = .stateW) ∧
    (relay.fsm21.state = .stateR ∨ relay.fsm21.state = .stateW)

theorem and_or (mask first second : UInt16) :
    mask &&& (first ||| second) = mask &&& first ||| mask &&& second := by
  apply UInt16.toBitVec_inj.mp
  rw [UInt16.toBitVec_and, UInt16.toBitVec_or, BitVec.and_or_distrib_left]
  rfl

/-- A report of an input or output event shows that it was asked for. -/
theorem asked_of_bit {events revents bit : UInt16} (hbit : bit = pollIn ∨ bit = pollOut)
    (h : Reportable events revents) (hset : revents &&& bit ≠ 0) : revents &&& events ≠ 0 := by
  have hnever : bit &&& pollErr = 0 ∧ bit &&& pollHup = 0 ∧ bit &&& pollNval = 0 := by
    rcases hbit with rfl | rfl <;> decide
  have hmask : bit &&& (events ||| pollErr ||| pollHup ||| pollNval) = bit &&& events := by
    rw [and_or, and_or, and_or, hnever.1, hnever.2.1, hnever.2.2, UInt16.or_zero, UInt16.or_zero,
      UInt16.or_zero]
  intro hnone
  apply hset
  calc revents &&& bit
      = revents &&& (bit &&& (events ||| pollErr ||| pollHup ||| pollNval)) := by
        rw [UInt16.and_comm bit, ← UInt16.and_assoc, h]
    _ = revents &&& events &&& bit := by
        rw [hmask, UInt16.and_comm bit, UInt16.and_assoc]
    _ = 0 := by rw [hnone, UInt16.zero_and]

/-- Of the events that the machines can ask for, a report shows the ones that were
asked for. -/
theorem asked_iff {events revents : UInt16} (hevents : events &&& (pollIn ||| pollOut) = events)
    (h : Reportable events revents) :
    revents &&& events ≠ 0 ↔ revents &&& pollIn ≠ 0 ∨ revents &&& pollOut ≠ 0 := by
  constructor
  · intro hasked
    by_contra hnone
    simp only [ne_eq, not_or, not_not] at hnone
    apply hasked
    calc revents &&& events
        = revents &&& (pollIn ||| pollOut) &&& events := by
          rw [UInt16.and_assoc, UInt16.and_comm (pollIn ||| pollOut), hevents]
      _ = 0 := by rw [and_or, hnone.1, hnone.2, UInt16.or_self, UInt16.zero_and]
  · rintro (hset | hset)
    · exact asked_of_bit (Or.inl rfl) h hset
    · exact asked_of_bit (Or.inr rfl) h hset

theorem events_needed (relay : RelaySt) :
    relay.events0 &&& (pollIn ||| pollOut) = relay.events0 ∧
      relay.events1 &&& (pollIn ||| pollOut) = relay.events1 := by
  unfold RelaySt.events0 RelaySt.events1
  constructor
  · split <;> split <;> decide
  · split <;> split <;> decide

/-! ## One iteration -/

/-- In `poll` the loop has asked for what the machines need. -/
def AsksRight (relay : RelaySt) : Prop :=
  relay.place = .polling → relay.fds0.events = relay.events0 ∧ relay.fds1.events = relay.events1

theorem drive21_place (relay : RelaySt) (io : IoAnswers) :
    (relay.drive21 io).place = .head ∨ (relay.drive21 io).place = .aborted := by
  unfold RelaySt.drive21
  split
  · rename_i haborted
    exact Or.inr haborted
  · split
    · split
      · exact Or.inr rfl
      · exact Or.inl rfl
    · exact Or.inl rfl

theorem asksRight_step {relay next : RelaySt} {input : RelayInput} (h : AsksRight relay)
    (hstep : relayStep relay input = some next) : AsksRight next := by
  unfold relayStep at hstep
  split at hstep
  · split at hstep
    · cases hstep
      exact fun _ => ⟨rfl, rfl⟩
    · cases hstep
      exact nofun
  · split at hstep
    · cases hstep
      exact h
    · cases hstep
      exact nofun
  · split at hstep
    · cases hstep
      exact nofun
    · cases hstep
  · cases hstep
    intro hpolling
    rcases drive21_place _ _ with hplace | hplace
    · rw [hplace] at hpolling
      cases hpolling
    · rw [hplace] at hpolling
      cases hpolling
  · cases hstep

theorem asksRight_run (fd1 fd2 : Int) (inputs : List RelayInput) :
    AsksRight (relayRun (relayStart fd1 fd2) inputs) :=
  @EventMachine.run_induction RelaySt RelayInput relayStep AsksRight
    (fun _ _ _ h hstep => asksRight_step h hstep) inputs _ nofun

theorem drive12_calls (relay : RelaySt) (io : IoAnswers) :
    (relay.drive12 io).driverCalls = relay.driverCalls + (if relay.drives12 then 1 else 0) ∧
      (relay.drive12 io).drives21 = relay.drives21 ∧
      ((relay.drive12 io).place = .aborted → relay.drives12 = true ∨ relay.place = .aborted) := by
  unfold RelaySt.drive12
  split
  · rename_i hdrives
    split
    · exact ⟨rfl, rfl, fun _ => Or.inl hdrives⟩
    · exact ⟨rfl, rfl, fun _ => Or.inl hdrives⟩
  · exact ⟨rfl, rfl, Or.inr⟩

theorem drive21_calls (relay : RelaySt) (io : IoAnswers) :
    (relay.drive21 io).driverCalls =
      relay.driverCalls + (if relay.place ≠ .aborted ∧ relay.drives21 = true then 1 else 0) := by
  unfold RelaySt.drive21
  split
  · rename_i haborted
    rw [if_neg (fun h => h.1 haborted), Nat.add_zero]
  · rename_i hrunning
    split
    · rename_i hdrives
      rw [if_pos ⟨hrunning, hdrives⟩]
      split <;> rfl
    · rename_i hdrives
      rw [if_neg (fun h => hdrives h.2), Nat.add_zero]

/-- An iteration calls the driver exactly when one of its two conditions holds. -/
theorem driven_iff {relay : RelaySt} (hplace : relay.place = .driving) (io12 io21 : IoAnswers) :
    relay.driverCalls < ((relay.drive12 io12).drive21 io21).driverCalls ↔
      relay.drives12 = true ∨ relay.drives21 = true := by
  obtain ⟨hcalls, hsame, haborted⟩ := drive12_calls relay io12
  rw [drive21_calls, hcalls, hsame]
  by_cases hfirst : relay.drives12 = true
  · simp only [hfirst, if_true, true_or, iff_true]
    omega
  · have hrunning : (relay.drive12 io12).place ≠ .aborted := by
      intro h
      rcases haborted h with h | h
      · exact hfirst h
      · rw [hplace] at h
        cases h
    by_cases hsecond : relay.drives21 = true <;> simp [hfirst, hsecond, hrunning]

/-- Without one of them it only goes back to the head. -/
theorem drive_idle {relay : RelaySt} (hplace : relay.place = .driving)
    (h : ¬ (relay.drives12 = true ∨ relay.drives21 = true)) (io12 io21 : IoAnswers) :
    (relay.drive12 io12).drive21 io21 = { relay with place := .head } := by
  rw [not_or] at h
  rw [RelaySt.drive12, if_neg h.1, RelaySt.drive21, if_neg (by rw [hplace]; nofun), if_neg h.2]

/-- With machines that read or write, the conditions hold for the events that were
asked for. -/
theorem drives_iff_asked {relay : RelaySt} (hright : AsksRight relay)
    (hpolling : relay.place = .polling) (hopen : relay.Open) {revents0 revents1 : UInt16}
    (h : relay.Deliverable revents0 revents1) {driving : RelaySt}
    (hdriving : relayStep relay (.delivered revents0 revents1) = some driving) :
    driving.place = .driving ∧ driving.driverCalls = relay.driverCalls ∧
      (driving.drives12 = true ∨ driving.drives21 = true ↔ relay.Asked revents0 revents1) := by
  obtain ⟨hevents0, hevents1⟩ := hright hpolling
  obtain ⟨hneeded0, hneeded1⟩ := events_needed relay
  rw [← hevents0] at hneeded0
  rw [← hevents1] at hneeded1
  have hlow : ∀ fsm : FsmSt, fsm.state = .stateR ∨ fsm.state = .stateW →
      ¬ fsm.state.value > FsmState.stateAuto.value := by
    rintro fsm (hstate | hstate) <;> rw [hstate] <;> decide
  have hlow12 := hlow relay.fsm12 hopen.1
  have hlow21 := hlow relay.fsm21 hopen.2
  simp only [relayStep, hpolling, if_pos h, Option.some.injEq] at hdriving
  subst hdriving
  refine ⟨rfl, rfl, ?_⟩
  rw [RelaySt.Asked, asked_iff hneeded0 h.1, asked_iff hneeded1 h.2.1]
  simp only [RelaySt.drives12, RelaySt.drives21, hlow12, hlow21, decide_false, Bool.or_false,
    Bool.or_eq_true, decide_eq_true_eq]
  tauto

/-- Progress of the poll relay.  In every iteration of every run in which both
machines read or write, whatever `poll` delivers and the calls answer, the driver is
called exactly when an event is delivered that was asked for. -/
theorem poll_relay_drives_iff (fd1 fd2 : Int) (inputs : List RelayInput)
    (revents0 revents1 : UInt16) (io12 io21 : IoAnswers)
    (hpolling : (relayRun (relayStart fd1 fd2) inputs).place = .polling)
    (hopen : (relayRun (relayStart fd1 fd2) inputs).Open)
    (h : (relayRun (relayStart fd1 fd2) inputs).Deliverable revents0 revents1) :
    (relayRun (relayStart fd1 fd2) inputs).driverCalls <
        (relayRun (relayStart fd1 fd2)
          (inputs ++ [.delivered revents0 revents1, .drive io12 io21])).driverCalls ↔
      (relayRun (relayStart fd1 fd2) inputs).Asked revents0 revents1 := by
  have hright := asksRight_run fd1 fd2 inputs
  have happend : relayRun (relayStart fd1 fd2)
      (inputs ++ [.delivered revents0 revents1, .drive io12 io21]) =
        relayRun (relayRun (relayStart fd1 fd2) inputs)
          [.delivered revents0 revents1, .drive io12 io21] :=
    EventMachine.run_append relayStep _ _ _
  rw [happend]
  generalize relayRun (relayStart fd1 fd2) inputs = relay at *
  have hstep : ∃ driving, relayStep relay (.delivered revents0 revents1) = some driving := by
    simp only [relayStep, hpolling, if_pos h, Option.some.injEq, exists_eq']
  obtain ⟨driving, hdriving⟩ := hstep
  obtain ⟨hplace, hcalls, hdrives⟩ := drives_iff_asked hright hpolling hopen h hdriving
  have hrun : relayRun relay [.delivered revents0 revents1, .drive io12 io21] =
      (driving.drive12 io12).drive21 io21 := by
    have hdrive : relayStep driving (.drive io12 io21) =
        some ((driving.drive12 io12).drive21 io21) := by
      simp only [relayStep, hplace]
    simp only [relayRun, EventMachine.run_cons, EventMachine.run_nil, EventMachine.apply, hdriving,
      hdrive, Option.getD_some]
  rw [hrun, ← hcalls, driven_iff hplace, hdrives]

theorem poll_relay_drives_iff_input :
    (relayRun (relayStart 3 4) [.loop]).driverCalls <
        (relayRun (relayStart 3 4) ([.loop] ++
          [.delivered pollIn 0, .drive ⟨.ok [1], .error 11⟩ ⟨.error 11, .error 11⟩])).driverCalls ↔
      (relayRun (relayStart 3 4) [.loop]).Asked pollIn 0 :=
  poll_relay_drives_iff 3 4 [.loop] pollIn 0 _ _ rfl ⟨Or.inl rfl, Or.inl rfl⟩ (by decide +kernel)

/-- A hang-up of the first descriptor alone calls no driver. -/
theorem poll_relay_hangup :
    (relayRun (relayStart 3 4) [.loop]).place = .polling ∧
      (relayRun (relayStart 3 4) [.loop]).Open ∧
      (relayRun (relayStart 3 4) [.loop]).Deliverable pollHup 0 ∧
      ∀ io12 io21, (relayRun (relayStart 3 4)
        [.loop, .delivered pollHup 0, .drive io12 io21]).driverCalls = 0 := by
  refine ⟨rfl, ⟨Or.inl rfl, Or.inl rfl⟩, by decide +kernel, fun io12 io21 => ?_⟩
  have hdriving : (relayRun (relayStart 3 4) [.loop, .delivered pollHup 0]).place = .driving := by
    decide +kernel
  have hstep : relayRun (relayStart 3 4) [.loop, .delivered pollHup 0, .drive io12 io21] =
      relayRun (relayRun (relayStart 3 4) [.loop, .delivered pollHup 0]) [.drive io12 io21] :=
    EventMachine.run_append relayStep _ [.loop, .delivered pollHup 0] _
  rw [hstep, relayRun, EventMachine.run_cons, EventMachine.run_nil, EventMachine.apply]
  simp only [relayStep, hdriving, Option.getD_some]
  rw [drive_idle hdriving (by decide +kernel)]
  decide +kernel

/-! ## The busy loop -/

/-- `poll` can deliver these results, and they call no driver. -/
structure Spinning (revents0 revents1 : UInt16) (relay : RelaySt) : Prop where
  polling : relay.place = .polling
  right : AsksRight relay
  opened : relay.Open
  deliverable : relay.Deliverable revents0 revents1
  notAsked : ¬ relay.Asked revents0 revents1

/-- One turn of the loop with the same results. -/
def sameTurn (revents0 revents1 : UInt16) (io : IoAnswers × IoAnswers) : List RelayInput :=
  [.delivered revents0 revents1, .drive io.1 io.2, .loop]

theorem relayStep_loop {relay : RelaySt} (hplace : relay.place = .head) (hopen : relay.Open) :
    relayStep relay .loop = some { relay.ask with place := .polling } := by
  have hruns : relay.runs = true ∧ relay.ask.waits = true := by
    unfold RelaySt.runs RelaySt.waits
    rcases hopen.1 with hstate | hstate
    · simp [RelaySt.ask, hstate, FsmState.value]
    · simp [RelaySt.ask, hstate, FsmState.value]
  simp only [relayStep, hplace, hruns.1, hruns.2, if_true]

/-- The turn leaves everything but the results as it was. -/
theorem Spinning.turn {revents0 revents1 : UInt16} {relay : RelaySt}
    (h : Spinning revents0 revents1 relay) (io : IoAnswers × IoAnswers) :
    relayRun relay (sameTurn revents0 revents1 io) = { relay with
      fds0 := { relay.fds0 with revents := revents0 }
      fds1 := { relay.fds1 with revents := revents1 } } := by
  obtain ⟨hevents0, hevents1⟩ := h.right h.polling
  have hstep : ∃ driving, relayStep relay (.delivered revents0 revents1) = some driving := by
    simp only [relayStep, h.polling, if_pos h.deliverable, Option.some.injEq, exists_eq']
  obtain ⟨driving, hdriving⟩ := hstep
  obtain ⟨hplace, -, hdrives⟩ :=
    drives_iff_asked h.right h.polling h.opened h.deliverable hdriving
  have hidle := drive_idle hplace (fun hdriven => h.notAsked (hdrives.mp hdriven)) io.1 io.2
  have hdrive : relayStep driving (.drive io.1 io.2) = some { driving with place := .head } := by
    simp only [relayStep, hplace, hidle]
  have hfields : driving = { relay with
      fds0 := { relay.fds0 with revents := revents0 }
      fds1 := { relay.fds1 with revents := revents1 }
      place := .driving } := by
    simp only [relayStep, h.polling, if_pos h.deliverable, Option.some.injEq] at hdriving
    exact hdriving.symm
  have hloop : relayStep { driving with place := .head } .loop = some { relay with
      fds0 := { relay.fds0 with revents := revents0 }
      fds1 := { relay.fds1 with revents := revents1 } } := by
    have hask : relayStep { driving with place := .head } .loop = some
        ⟨relay.fsm12, relay.fsm21, ⟨relay.fds0.fd, relay.events0, revents0⟩,
          ⟨relay.fds1.fd, relay.events1, revents1⟩, relay.driverCalls, .polling⟩ := by
      subst hfields
      exact relayStep_loop rfl h.opened
    rw [hask, ← hevents0, ← hevents1, ← h.polling]
  simp only [sameTurn, relayRun, EventMachine.run_cons, EventMachine.run_nil, EventMachine.apply,
    hdriving, hdrive, hloop, Option.getD_some]

/-- As long as `poll` delivers the same results, which is at once, the loop goes round
and calls no driver. -/
theorem poll_relay_spins {revents0 revents1 : UInt16} {relay : RelaySt}
    (h : Spinning revents0 revents1 relay) (answers : List (IoAnswers × IoAnswers)) :
    Spinning revents0 revents1 (relayRun relay (answers.flatMap (sameTurn revents0 revents1))) ∧
      (relayRun relay (answers.flatMap (sameTurn revents0 revents1))).driverCalls =
        relay.driverCalls := by
  induction answers generalizing relay with
  | nil => exact ⟨h, rfl⟩
  | cons io rest ih =>
    have hnext : Spinning revents0 revents1 { relay with
        fds0 := { relay.fds0 with revents := revents0 }
        fds1 := { relay.fds1 with revents := revents1 } } :=
      ⟨h.polling, h.right, h.opened, h.deliverable, h.notAsked⟩
    have happend : relayRun relay ((io :: rest).flatMap (sameTurn revents0 revents1)) =
        relayRun (relayRun relay (sameTurn revents0 revents1 io))
          (rest.flatMap (sameTurn revents0 revents1)) :=
      EventMachine.run_append relayStep _ _ _
    rw [happend, h.turn io]
    exact ih hnext

end LearnApue.Stdio.Poll
