import LearnApue.Stdio.FsmDriver

set_option autoImplicit false

/-!
# The nonblocking relay

`adv/nonblock/relay.c` drives both machines over and over until they are done.  A machine
relays (`Relayed`) when what was read and what was written differ only by the rest that
is still in the buffer, whatever the kernel answers.
-/

namespace LearnApue.Stdio.Nonblock

open LearnApue.Foundation LearnApue.Foundation.ByteFile

/-! ## What was relayed -/

/-- Nothing is lost, duplicated or reordered. -/
structure Relayed (machine : Machine) : Prop where
  conserved : machine.written ++ machine.unwritten = machine.received
  bounds : machine.fsm.state = .stateW → 0 ≤ machine.fsm.pos ∧ 0 < machine.fsm.len ∧
    machine.fsm.pos + machine.fsm.len ≤ bufsize
  endOfFile : machine.fsm.state = .stateT → machine.calls.any Call.endOfFile = true →
    machine.written = machine.received
  error : machine.fsm.state = .stateT → machine.calls.any Call.endOfFile = false →
    machine.written <+: machine.received

/-! ## One call -/

/-- What a machine keeps in each of its states. -/
structure RelayInv (machine : Machine) : Prop where
  conserved : machine.written ++ machine.unwritten = machine.received
  bounds : machine.fsm.state = .stateW → 0 ≤ machine.fsm.pos ∧ 0 < machine.fsm.len ∧
    machine.fsm.pos + machine.fsm.len ≤ bufsize
  whole : machine.fsm.state = .stateR ∨ machine.fsm.state = .stateW →
    machine.calls.any Call.brokeWrite = false
  open_ : machine.fsm.state ≠ .stateT → machine.calls.any Call.endOfFile = false
  once : machine.calls.any Call.endOfFile = true → machine.calls.any Call.brokeWrite = false

theorem RelayInv.relayed {machine : Machine} (h : RelayInv machine) : Relayed machine where
  conserved := h.conserved
  bounds := h.bounds
  endOfFile := by
    intro hstate hend
    have hwhole := h.once hend
    rw [← h.conserved, Machine.unwritten, hstate, hwhole, if_neg (by simp), List.append_nil]
  error := fun _ _ => ⟨machine.unwritten, h.conserved⟩

/-- A write takes the front of the rest. -/
theorem rest_split (fsm : FsmSt) {ret : Nat} (hpos : 0 ≤ fsm.pos) (hret : (ret : Int) ≤ fsm.len) :
    fsm.rest.take ret ++ fsm.buf.slice (fsm.pos + ret).toNat (fsm.len - ret).toNat = fsm.rest := by
  have hstart : (fsm.pos + ret).toNat = fsm.pos.toNat + ret := by omega
  have hleft : (fsm.len - ret).toNat = fsm.len.toNat - ret := by omega
  have hle : ret ≤ fsm.len.toNat := by omega
  have hfront : fsm.rest.take ret = fsm.buf.slice fsm.pos.toNat ret := by
    rw [FsmSt.rest, Buffer.slice, Buffer.slice, List.take_take, Nat.min_eq_left hle]
  rw [hfront, hstart, hleft, Buffer.slice_split _ hle]
  rfl

variable {machine next : Machine} {errno : Int}

theorem Machine.unwritten_eq_nil (hstate : machine.fsm.state ≠ .stateW)
    (hwhole : machine.calls.any Call.brokeWrite = false) : machine.unwritten = [] := by
  rw [Machine.unwritten, hwhole]
  simp [hstate]

/-- One more call keeps the invariant when the bytes it writes and leaves are those that were
left and those it reads. -/
theorem RelayInv.push (h : RelayInv machine) {fsm : FsmSt} {call : Call}
    (hmoved : call.written ++ Machine.unwritten ⟨fsm, machine.calls ++ [call]⟩ =
      machine.unwritten ++ call.received)
    (hopen : machine.calls.any Call.endOfFile = false)
    (hbounds : fsm.state = .stateW → 0 ≤ fsm.pos ∧ 0 < fsm.len ∧ fsm.pos + fsm.len ≤ bufsize)
    (hwhole : fsm.state = .stateR ∨ fsm.state = .stateW ∨ call.endOfFile = true →
      (machine.calls ++ [call]).any Call.brokeWrite = false)
    (hend : fsm.state ≠ .stateT → call.endOfFile = false) :
    RelayInv ⟨fsm, machine.calls ++ [call]⟩ := by
  have hread : Machine.received ⟨fsm, machine.calls ++ [call]⟩ =
      machine.received ++ call.received := by
    simp [Machine.received]
  have hwritten : Machine.written ⟨fsm, machine.calls ++ [call]⟩ =
      machine.written ++ call.written := by
    simp [Machine.written]
  have hends : (machine.calls ++ [call]).any Call.endOfFile = call.endOfFile := by
    simp [hopen]
  refine ⟨?_, hbounds, ?_, ?_, ?_⟩
  · rw [hread, hwritten, List.append_assoc, hmoved, ← List.append_assoc, h.conserved]
  · rintro (hstate | hstate)
    · exact hwhole (Or.inl hstate)
    · exact hwhole (Or.inr (Or.inl hstate))
  · intro hstate
    rw [hends]
    exact hend hstate
  · intro hcalls
    rw [hends] at hcalls
    exact hwhole (Or.inr (Or.inr hcalls))

/-- A call that is no failed write leaves the calls without one. -/
theorem RelayInv.whole_push (h : RelayInv machine)
    (hstate : machine.fsm.state = .stateR ∨ machine.fsm.state = .stateW) {call : Call}
    (hcall : call.brokeWrite = false) :
    (machine.calls ++ [call]).any Call.brokeWrite = false := by
  rw [List.any_append, h.whole hstate, Bool.false_or, List.any_cons, hcall]
  rfl

theorem RelayInv.of_read_error (h : RelayInv machine) (hstate : machine.fsm.state = .stateR)
    (hstep : machine.step (.read (.error errno)) = some next) : RelayInv next := by
  have hopen := h.open_ (by rw [hstate]; nofun)
  have hbefore : machine.unwritten = [] :=
    Machine.unwritten_eq_nil (by rw [hstate]; nofun) (h.whole (Or.inl hstate))
  have hwhole := h.whole_push (Or.inl hstate) (show Call.brokeWrite
    (.read machine.fsm.sfd (.error errno)) = false from rfl)
  simp only [Machine.step, fsmDriver, hstate, Option.map_some, Option.some.injEq] at hstep
  subst hstep
  split
  · refine h.push ?_ hopen nofun (fun _ => hwhole) fun _ => rfl
    rw [Machine.unwritten_eq_nil (by simp) hwhole, hbefore]
    rfl
  · refine h.push ?_ hopen nofun (fun _ => hwhole) fun _ => rfl
    rw [Machine.unwritten_eq_nil (by simp) hwhole, hbefore]
    rfl

theorem RelayInv.of_read (h : RelayInv machine) (hstate : machine.fsm.state = .stateR)
    {data : Bytes} (hstep : machine.step (.read (.ok data)) = some next) : RelayInv next := by
  have hopen := h.open_ (by rw [hstate]; nofun)
  have hbefore : machine.unwritten = [] :=
    Machine.unwritten_eq_nil (by rw [hstate]; nofun) (h.whole (Or.inl hstate))
  have hwhole := h.whole_push (Or.inl hstate) (show Call.brokeWrite
    (.read machine.fsm.sfd (.ok data)) = false from rfl)
  simp only [Machine.step, fsmDriver, hstate] at hstep
  split at hstep
  · rename_i hroom
    rw [Option.map_some, Option.some.injEq] at hstep
    subst hstep
    by_cases hdata : data = []
    · subst hdata
      refine h.push ?_ hopen nofun (fun _ => hwhole) fun hrunning => absurd rfl hrunning
      rw [Machine.unwritten_eq_nil (by simp) hwhole, hbefore]
      rfl
    · have hpos := List.length_pos_iff.mpr hdata
      have hlen : ¬ (data.length : Int) = 0 := by omega
      rw [if_neg hlen]
      refine h.push ?_ hopen (fun _ => ⟨le_rfl, by dsimp only; omega, by dsimp only; omega⟩)
        (fun _ => hwhole) fun _ => by simpa [Call.endOfFile] using hdata
      rw [Machine.unwritten, if_pos (Or.inl rfl), hbefore]
      exact Buffer.slice_store hroom
  · cases hstep

theorem RelayInv.of_write_error (h : RelayInv machine) (hstate : machine.fsm.state = .stateW)
    (hstep : machine.step (.write (.error errno)) = some next) : RelayInv next := by
  have hopen := h.open_ (by rw [hstate]; nofun)
  have hbefore : machine.unwritten = machine.fsm.rest :=
    if_pos (Or.inl hstate)
  simp only [Machine.step, fsmDriver, hstate, Option.map_some, Option.some.injEq] at hstep
  subst hstep
  split
  · rename_i hagain
    have hwhole := h.whole_push (Or.inr hstate) (show Call.brokeWrite
      (.write machine.fsm.dfd (.error errno)) = false by simp [Call.brokeWrite, hagain])
    refine h.push ?_ hopen (fun _ => h.bounds hstate) (fun _ => hwhole) fun _ => rfl
    rw [Machine.unwritten, if_pos (Or.inl rfl), hbefore]
    exact (List.append_nil _).symm
  · rename_i hbroken
    refine h.push ?_ hopen nofun ?_ fun _ => rfl
    · rw [Machine.unwritten, if_pos (Or.inr (by simp [Call.brokeWrite, hbroken])), hbefore]
      exact (List.append_nil _).symm
    · rintro (hnext | hnext | hnext)
      · cases hnext
      · cases hnext
      · cases hnext

theorem RelayInv.of_write (h : RelayInv machine) (hstate : machine.fsm.state = .stateW)
    {ret : Nat} (hstep : machine.step (.write (.ok ret)) = some next) : RelayInv next := by
  have hopen := h.open_ (by rw [hstate]; nofun)
  have hbounds := h.bounds hstate
  have hbefore : machine.unwritten = machine.fsm.rest :=
    if_pos (Or.inl hstate)
  simp only [Machine.step, fsmDriver, hstate] at hstep
  split at hstep
  · rename_i hret
    rw [Option.map_some, Option.some.injEq] at hstep
    subst hstep
    have hwhole := h.whole_push (Or.inr hstate) (show Call.brokeWrite (.write machine.fsm.dfd
      (.ok ((machine.fsm.rest).take ret))) = false from rfl)
    have hsplit := rest_split machine.fsm hbounds.1 hret
    by_cases hleft : machine.fsm.len - ret > 0
    · rw [if_pos hleft]
      refine h.push ?_ hopen (fun _ => ⟨by dsimp only; omega, hleft, by dsimp only; omega⟩)
        (fun _ => hwhole) fun _ => rfl
      rw [Machine.unwritten, if_pos (Or.inl rfl), hbefore]
      exact hsplit.trans (List.append_nil _).symm
    · have hall : machine.fsm.buf.slice (machine.fsm.pos + ret).toNat
          (machine.fsm.len - ret).toNat = [] := by
        have hnone : (machine.fsm.len - ret).toNat = 0 := Int.toNat_of_nonpos (by omega)
        rw [hnone, Buffer.slice_zero]
      rw [if_neg hleft]
      refine h.push ?_ hopen nofun (fun _ => hwhole) fun _ => rfl
      rw [hall, List.append_nil] at hsplit
      rw [Machine.unwritten_eq_nil (by simp) hwhole, hbefore]
      show _ ++ [] = _ ++ []
      rw [Call.written, hsplit]
  · cases hstep

/-- A machine that failed prints its error and stops. -/
theorem RelayInv.of_error (h : RelayInv machine) (hstate : machine.fsm.state = .stateE)
    (hstep : machine.step .nothing = some next) : RelayInv next := by
  have hopen := h.open_ (by rw [hstate]; nofun)
  simp only [Machine.step, fsmDriver, hstate, Option.map_some, Option.some.injEq] at hstep
  subst hstep
  refine h.push ?_ hopen nofun ?_ fun _ => rfl
  · have hbroke : (machine.calls ++ [Call.perror machine.fsm.errstr]).any Call.brokeWrite =
        machine.calls.any Call.brokeWrite := by
      simp [Call.brokeWrite]
    rw [Machine.unwritten, Machine.unwritten, hbroke, hstate]
    simp [Call.written, Call.received]
    rfl
  · rintro (hnext | hnext | hnext)
    · cases hnext
    · cases hnext
    · cases hnext

/-- Every call of `fsm_driver` keeps the invariant. -/
theorem RelayInv.step (h : RelayInv machine) {answer : Answer}
    (hstep : machine.step answer = some next) : RelayInv next := by
  cases hstate : machine.fsm.state with
  | stateR =>
    match answer with
    | .read (.error errno) => exact h.of_read_error hstate hstep
    | .read (.ok data) => exact h.of_read hstate hstep
    | .write _ | .nothing => simp [Machine.step, fsmDriver, hstate] at hstep
  | stateW =>
    match answer with
    | .write (.error errno) => exact h.of_write_error hstate hstep
    | .write (.ok ret) => exact h.of_write hstate hstep
    | .read _ | .nothing => simp [Machine.step, fsmDriver, hstate] at hstep
  | stateE =>
    match answer with
    | .nothing => exact h.of_error hstate hstep
    | .read _ | .write _ => simp [Machine.step, fsmDriver, hstate] at hstep
  | stateT =>
    match answer with
    | .nothing =>
      simp only [Machine.step, fsmDriver, hstate, Option.map_some, List.append_nil,
        Option.some.injEq] at hstep
      rwa [← hstep]
    | .read _ | .write _ => simp [Machine.step, fsmDriver, hstate] at hstep
  | stateAuto => simp [Machine.step, fsmDriver, hstate] at hstep

theorem relayInv_start (fsm : FsmSt) (sfd dfd : Int) : RelayInv (Machine.start fsm sfd dfd) := by
  constructor <;> simp [Machine.start, Machine.written, Machine.received, Machine.unwritten]

/-- Every machine relays after any sequence of calls: nothing is lost, duplicated or
reordered. -/
theorem fsmDriver_relayed (fsm : FsmSt) (sfd dfd : Int) (answers : List Answer) :
    Relayed (EventMachine.run Machine.step (Machine.start fsm sfd dfd) answers) :=
  (@EventMachine.run_induction Machine Answer Machine.step RelayInv
    (fun _ _ _ h hstep => h.step hstep) answers _ (relayInv_start fsm sfd dfd)).relayed

/-- A machine that has read two bytes and cannot write them. -/
def brokenMachine : Machine :=
  EventMachine.run Machine.step
    (Machine.start ⟨.stateR, 0, 0, 0, 0, Buffer.zeros bufsize, none⟩ 3 4)
    [.read (.ok (ascii "ab")), .write (.error 5)]

/-- In `STATE_E` the bytes written need not be all that were read: after a failed write
the rest is still in the buffer. -/
theorem brokenMachine_keeps_rest :
    brokenMachine.fsm.state = .stateE ∧ brokenMachine.received = ascii "ab" ∧
      brokenMachine.written ≠ brokenMachine.received ∧
      brokenMachine.unwritten = ascii "ab" := by
  decide +kernel

/-! ## The loop -/

/-- The machines of `relay`. -/
structure RelaySt where
  fd12 : Machine
  fd21 : Machine

/-- The machines in front of the loop. -/
def relayStart (fsm12 fsm21 : FsmSt) (fd1 fd2 : Int) : RelaySt :=
  ⟨Machine.start fsm12 fd1 fd2, Machine.start fsm21 fd2 fd1⟩

/-- One turn of the loop: it ends when both machines are in `STATE_T`. -/
def relayTurn (relay : RelaySt) (answers : Answer × Answer) : Option RelaySt :=
  if relay.fd12.fsm.state ≠ .stateT ∨ relay.fd21.fsm.state ≠ .stateT then do
    let fd12 ← relay.fd12.step answers.1
    let fd21 ← relay.fd21.step answers.2
    return ⟨fd12, fd21⟩
  else none

/-- Both directions relay in every turn of the loop. -/
theorem relay_relayed (fsm12 fsm21 : FsmSt) (fd1 fd2 : Int) (answers : List (Answer × Answer)) :
    Relayed (EventMachine.run relayTurn (relayStart fsm12 fsm21 fd1 fd2) answers).fd12 ∧
      Relayed (EventMachine.run relayTurn (relayStart fsm12 fsm21 fd1 fd2) answers).fd21 := by
  have hboth := @EventMachine.run_induction RelaySt (Answer × Answer) relayTurn
    (fun relay => RelayInv relay.fd12 ∧ RelayInv relay.fd21) (by
      intro relay answers next h hturn
      unfold relayTurn at hturn
      split at hturn
      · obtain ⟨fd12, h12, hturn⟩ := Option.bind_eq_some_iff.mp hturn
        obtain ⟨fd21, h21, hturn⟩ := Option.bind_eq_some_iff.mp hturn
        cases hturn
        exact ⟨h.1.step h12, h.2.step h21⟩
      · cases hturn) answers (relayStart fsm12 fsm21 fd1 fd2)
    ⟨relayInv_start fsm12 fd1 fd2, relayInv_start fsm21 fd2 fd1⟩
  exact ⟨hboth.1.relayed, hboth.2.relayed⟩

end LearnApue.Stdio.Nonblock
