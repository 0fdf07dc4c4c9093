import LearnApue.Stdio.NonblockRelay

set_option autoImplicit false

/-!
# The select relay

`adv/select/relay.c` drives the machines of the nonblocking relay only when `select`
reports what they wait for.  It asks for the descriptors that the machines need, and
`select` leaves in the two sets those that are ready.  A machine in `STATE_E` or
`STATE_T` is driven in every iteration.
-/

namespace LearnApue.Stdio.Nonblock.Select

open LearnApue.Foundation LearnApue.Foundation.EventMachine

/-! ## The transcription -/

/-- `fd_set`: `FD_SET` adds a descriptor and `FD_ISSET` looks for it. -/
abbrev FdSet := List Int

/-- Where the loop stands: at its head, in `select`, behind it, or the program left it
or exited. -/
inductive Place where
  | head
  | selecting
  | driving
  | left
  | exited
deriving DecidableEq, Repr

/-- The locals of `relay`. -/
structure SelectRelay where
  fsm12 : Machine
  fsm21 : Machine
  rset : FdSet
  wset : FdSet
  place : Place

/-- `relay` in front of its loop. -/
def selectStart (fsm12 fsm21 : FsmSt) (fd1 fd2 : Int) : SelectRelay :=
  ⟨Machine.start fsm12 fd1 fd2, Machine.start fsm21 fd2 fd1, [], [], .head⟩

/-- `state < STATE_AUTO`. -/
def waits (machine : Machine) : Bool :=
  machine.fsm.state = .stateR ∨ machine.fsm.state = .stateW

/-- The descriptors that a machine needs to read from. -/
def needsRead (machine : Machine) : FdSet :=
  if machine.fsm.state = .stateR then [machine.fsm.sfd] else []

/-- The descriptors that a machine needs to write to. -/
def needsWrite (machine : Machine) : FdSet :=
  if machine.fsm.state = .stateW then [machine.fsm.dfd] else []

namespace SelectRelay

/-- The sets as the loop fills them. -/
def ask (relay : SelectRelay) : SelectRelay :=
  { relay with
    rset := needsRead relay.fsm12 ++ needsRead relay.fsm21
    wset := needsWrite relay.fsm12 ++ needsWrite relay.fsm21 }

/-- The condition under which the loop drives `fsm12`. -/
def drives12 (relay : SelectRelay) (fd1 fd2 : Int) : Bool :=
  fd1 ∈ relay.rset ∨ fd2 ∈ relay.wset ∨ waits relay.fsm12 = false

/-- The condition under which the loop drives `fsm21`. -/
def drives21 (relay : SelectRelay) (fd1 fd2 : Int) : Bool :=
  fd1 ∈ relay.wset ∨ fd2 ∈ relay.rset ∨ waits relay.fsm21 = false

/-- What `select` may leave in the sets when it returns a positive count. -/
def Deliverable (relay : SelectRelay) (rset wset : FdSet) : Prop :=
  (∀ fd ∈ rset, fd ∈ relay.rset) ∧ (∀ fd ∈ wset, fd ∈ relay.wset) ∧ (rset ≠ [] ∨ wset ≠ [])

instance (relay : SelectRelay) (rset wset : FdSet) : Decidable (relay.Deliverable rset wset) :=
  inferInstanceAs (Decidable (_ ∧ _))

end SelectRelay

/-- What happens to the loop: it goes from its head to `select` or past it, `select`
fails or leaves what is ready in the sets, or the machines are driven with what the
kernel answers. -/
inductive SelectInput where
  | loop
  | failed (errno : Int)
  | ready (rset wset : FdSet)
  | drive (answer12 answer21 : Answer)

/-- `if (...) fsm_driver(&fsm);` -/
def driveIf (drives : Bool) (machine : Machine) (answer : Answer) : Option Machine :=
  if drives then machine.step answer else some machine

/-- One input, where the loop stands at a place that takes it. -/
def selectStep (fd1 fd2 : Int) (relay : SelectRelay) (input : SelectInput) : Option SelectRelay :=
  match relay.place, input with
  | .head, .loop =>
      if relay.fsm12.fsm.state ≠ .stateT ∨ relay.fsm21.fsm.state ≠ .stateT then
        some { relay.ask with
          place := if waits relay.fsm12 ∨ waits relay.fsm21 then .selecting else .driving }
      else some { relay with place := .left }
  | .selecting, .failed errno =>
      some { relay with place := if errno = eintr then .head else .exited }
  | .selecting, .ready rset wset =>
      if relay.Deliverable rset wset then
        some { relay with rset := rset, wset := wset, place := .driving }
      else none
  | .driving, .drive answer12 answer21 => do
      let fsm12 ← driveIf (relay.drives12 fd1 fd2) relay.fsm12 answer12
      let fsm21 ← driveIf (relay.drives21 fd1 fd2) relay.fsm21 answer21
      return { relay with fsm12 := fsm12, fsm21 := fsm21, place := .head }
  | _, _ => none

/-! ## A machine that is driven -/

section Machine

variable {machine next : Machine} {answer : Answer}

/-- A machine keeps its descriptors, and unless it is done it makes one call. -/
theorem step_frame (h : machine.step answer = some next) :
    next.fsm.sfd = machine.fsm.sfd ∧ next.fsm.dfd = machine.fsm.dfd ∧
      next.calls.length =
        machine.calls.length + if machine.fsm.state = .stateT then 0 else 1 := by
  obtain ⟨fsm, calls⟩ := machine
  obtain ⟨⟨after, made⟩, hdriver, rfl⟩ := Option.map_eq_some_iff.mp h
  simp only at hdriver ⊢
  unfold fsmDriver at hdriver
  split at hdriver
  · rename_i hstate
    cases hdriver
    refine ⟨?_, ?_, ?_⟩
    · split <;> rfl
    · split <;> rfl
    · simp [hstate]
  · rename_i hstate
    split at hdriver
    · cases hdriver
      refine ⟨?_, ?_, ?_⟩
      · split <;> rfl
      · split <;> rfl
      · simp [hstate]
    · cases hdriver
  · rename_i hstate
    cases hdriver
    refine ⟨?_, ?_, ?_⟩
    · split <;> rfl
    · split <;> rfl
    · simp [hstate]
  · rename_i hstate
    split at hdriver
    · cases hdriver
      refine ⟨?_, ?_, ?_⟩
      · split <;> rfl
      · split <;> rfl
      · simp [hstate]
    · cases hdriver
  · rename_i hstate
    cases hdriver
    exact ⟨rfl, rfl, by simp [hstate]⟩
  · rename_i hstate
    cases hdriver
    exact ⟨rfl, rfl, by simp [hstate]⟩
  · cases hdriver

theorem mem_needsRead {fd : Int} :
    fd ∈ needsRead machine ↔ machine.fsm.state = .stateR ∧ fd = machine.fsm.sfd := by
  unfold needsRead
  split
  · rename_i h
    simp [h]
  · rename_i h
    simp [h]

theorem mem_needsWrite {fd : Int} :
    fd ∈ needsWrite machine ↔ machine.fsm.state = .stateW ∧ fd = machine.fsm.dfd := by
  unfold needsWrite
  split
  · rename_i h
    simp [h]
  · rename_i h
    simp [h]

end Machine

/-- What a machine waits for is in the sets. -/
def Ready (machine : Machine) (rset wset : FdSet) : Prop :=
  machine.fsm.state = .stateR ∧ machine.fsm.sfd ∈ rset ∨
    machine.fsm.state = .stateW ∧ machine.fsm.dfd ∈ wset

/-! ## The loop -/

/-- The machines relay between their descriptors; in `select` the sets hold what the
machines need, and behind it some of that is ready. -/
structure SelectOk (fd1 fd2 : Int) (relay : SelectRelay) : Prop where
  inv12 : RelayInv relay.fsm12
  inv21 : RelayInv relay.fsm21
  fds12 : relay.fsm12.fsm.sfd = fd1 ∧ relay.fsm12.fsm.dfd = fd2
  fds21 : relay.fsm21.fsm.sfd = fd2 ∧ relay.fsm21.fsm.dfd = fd1
  asked : relay.place = .selecting →
    relay.rset = needsRead relay.fsm12 ++ needsRead relay.fsm21 ∧
      relay.wset = needsWrite relay.fsm12 ++ needsWrite relay.fsm21
  needed : relay.place = .driving →
    (∀ fd ∈ relay.rset, fd ∈ needsRead relay.fsm12 ++ needsRead relay.fsm21) ∧
      ∀ fd ∈ relay.wset, fd ∈ needsWrite relay.fsm12 ++ needsWrite relay.fsm21
  someReady : relay.place = .driving →
    waits relay.fsm12 = true ∨ waits relay.fsm21 = true → relay.rset ≠ [] ∨ relay.wset ≠ []
  runs : relay.place = .selecting ∨ relay.place = .driving →
    relay.fsm12.fsm.state ≠ .stateT ∨ relay.fsm21.fsm.state ≠ .stateT

section Loop

variable {fd1 fd2 : Int} {relay next : SelectRelay} {input : SelectInput}

/-- Behind `select` a machine is driven exactly when what it waits for is ready, or it
waits for nothing. -/
theorem SelectOk.drives_iff (h : SelectOk fd1 fd2 relay) (hne : fd1 ≠ fd2)
    (hplace : relay.place = .driving) :
    (relay.drives12 fd1 fd2 = true ↔
      Ready relay.fsm12 relay.rset relay.wset ∨ waits relay.fsm12 = false) ∧
    (relay.drives21 fd1 fd2 = true ↔
      Ready relay.fsm21 relay.rset relay.wset ∨ waits relay.fsm21 = false) := by
  obtain ⟨hread, hwrite⟩ := h.needed hplace
  obtain ⟨hsfd12, hdfd12⟩ := h.fds12
  obtain ⟨hsfd21, hdfd21⟩ := h.fds21
  have hr1 : fd1 ∈ relay.rset → relay.fsm12.fsm.state = .stateR := by
    intro hmem
    rcases List.mem_append.mp (hread fd1 hmem) with hneed | hneed
    · exact (mem_needsRead.mp hneed).1
    · exact absurd ((mem_needsRead.mp hneed).2.trans hsfd21) hne
  have hr2 : fd2 ∈ relay.rset → relay.fsm21.fsm.state = .stateR := by
    intro hmem
    rcases List.mem_append.mp (hread fd2 hmem) with hneed | hneed
    · exact absurd ((mem_needsRead.mp hneed).2.trans hsfd12).symm hne
    · exact (mem_needsRead.mp hneed).1
  have hw2 : fd2 ∈ relay.wset → relay.fsm12.fsm.state = .stateW := by
    intro hmem
    rcases List.mem_append.mp (hwrite fd2 hmem) with hneed | hneed
    · exact (mem_needsWrite.mp hneed).1
    · exact absurd ((mem_needsWrite.mp hneed).2.trans hdfd21).symm hne
  have hw1 : fd1 ∈ relay.wset → relay.fsm21.fsm.state = .stateW := by
    intro hmem
    rcases List.mem_append.mp (hwrite fd1 hmem) with hneed | hneed
    · exact absurd ((mem_needsWrite.mp hneed).2.trans hdfd12) hne
    · exact (mem_needsWrite.mp hneed).1
  unfold SelectRelay.drives12 SelectRelay.drives21 Ready
  rw [decide_eq_true_iff, decide_eq_true_iff, hsfd12, hdfd12, hsfd21, hdfd21]
  constructor
  · tauto
  · tauto

/-- Whoever is in the sets belongs to a machine that waits for it. -/
theorem SelectOk.ready_of_nonempty (h : SelectOk fd1 fd2 relay) (hplace : relay.place = .driving)
    (hsome : relay.rset ≠ [] ∨ relay.wset ≠ []) :
    Ready relay.fsm12 relay.rset relay.wset ∨ Ready relay.fsm21 relay.rset relay.wset := by
  obtain ⟨hread, hwrite⟩ := h.needed hplace
  rcases hsome with hsome | hsome
  · obtain ⟨fd, hfd⟩ := List.exists_mem_of_ne_nil _ hsome
    rcases List.mem_append.mp (hread fd hfd) with hneed | hneed
    · obtain ⟨hstate, rfl⟩ := mem_needsRead.mp hneed
      exact Or.inl (Or.inl ⟨hstate, hfd⟩)
    · obtain ⟨hstate, rfl⟩ := mem_needsRead.mp hneed
      exact Or.inr (Or.inl ⟨hstate, hfd⟩)
  · obtain ⟨fd, hfd⟩ := List.exists_mem_of_ne_nil _ hsome
    rcases List.mem_append.mp (hwrite fd hfd) with hneed | hneed
    · obtain ⟨hstate, rfl⟩ := mem_needsWrite.mp hneed
      exact Or.inl (Or.inr ⟨hstate, hfd⟩)
    · obtain ⟨hstate, rfl⟩ := mem_needsWrite.mp hneed
      exact Or.inr (Or.inr ⟨hstate, hfd⟩)

/-- A machine is driven, or left as it is. -/
theorem drive_machine {machine after : Machine} {drives : Bool} {answer : Answer}
    (hinv : RelayInv machine)
    (h : driveIf drives machine answer = some after) :
    RelayInv after ∧ after.fsm.sfd = machine.fsm.sfd ∧ after.fsm.dfd = machine.fsm.dfd ∧
      after.calls.length =
        machine.calls.length + if drives ∧ machine.fsm.state ≠ .stateT then 1 else 0 := by
  unfold driveIf at h
  split at h
  · rename_i hdrives
    obtain ⟨hsfd, hdfd, hcalls⟩ := step_frame h
    refine ⟨hinv.step h, hsfd, hdfd, ?_⟩
    rw [hcalls]
    by_cases hstate : machine.fsm.state = .stateT
    · simp [hstate]
    · simp [hstate, hdrives]
  · rename_i hdrives
    cases h
    exact ⟨hinv, rfl, rfl, by simp [hdrives]⟩

/-- The system calls that the machines have made. -/
def SelectRelay.callsMade (relay : SelectRelay) : Nat :=
  relay.fsm12.calls.length + relay.fsm21.calls.length

/-- Behind `select` some machine is driven that is not done. -/
theorem SelectOk.some_driven (h : SelectOk fd1 fd2 relay) (hne : fd1 ≠ fd2)
    (hplace : relay.place = .driving) :
    (relay.drives12 fd1 fd2 = true ∧ relay.fsm12.fsm.state ≠ .stateT) ∨
      (relay.drives21 fd1 fd2 = true ∧ relay.fsm21.fsm.state ≠ .stateT) := by
  obtain ⟨h12, h21⟩ := h.drives_iff hne hplace
  have hopen : ∀ {machine : Machine}, Ready machine relay.rset relay.wset →
      machine.fsm.state ≠ .stateT := by
    rintro machine (⟨hstate, -⟩ | ⟨hstate, -⟩) hdone
    · rw [hstate] at hdone
      cases hdone
    · rw [hstate] at hdone
      cases hdone
  by_cases hwaits : waits relay.fsm12 = true ∨ waits relay.fsm21 = true
  · rcases h.ready_of_nonempty hplace (h.someReady hplace hwaits) with hready | hready
    · exact Or.inl ⟨h12.mpr (Or.inl hready), hopen hready⟩
    · exact Or.inr ⟨h21.mpr (Or.inl hready), hopen hready⟩
  · simp only [not_or, Bool.not_eq_true] at hwaits
    exact (h.runs (Or.inr hplace)).imp (fun hstate => ⟨h12.mpr (Or.inr hwaits.1), hstate⟩)
      fun hstate => ⟨h21.mpr (Or.inr hwaits.2), hstate⟩

/-- At its head and outside of the loop nothing is known of the sets. -/
theorem SelectOk.of_outside (h : SelectOk fd1 fd2 relay) (place : Place)
    (hplace : place ≠ .selecting ∧ place ≠ .driving) :
    SelectOk fd1 fd2 { relay with place := place } :=
  ⟨h.inv12, h.inv21, h.fds12, h.fds21, fun hnext => absurd hnext hplace.1,
    fun hnext => absurd hnext hplace.2, fun hnext => absurd hnext hplace.2,
    fun hnext => absurd hnext (not_or.mpr hplace)⟩

/-- One input: `select` reports only what was asked for, and every iteration makes a
system call. -/
theorem selectStep_ok (h : SelectOk fd1 fd2 relay) (hne : fd1 ≠ fd2)
    (hstep : selectStep fd1 fd2 relay input = some next) :
    SelectOk fd1 fd2 next ∧
      relay.callsMade + (if relay.place = .driving then 1 else 0) ≤ next.callsMade := by
  unfold selectStep at hstep
  split at hstep
  · rename_i hplace
    rw [hplace]
    split at hstep
    · rename_i hruns
      rw [Option.some.injEq] at hstep
      subst hstep
      refine ⟨⟨h.inv12, h.inv21, h.fds12, h.fds21, fun _ => ⟨rfl, rfl⟩,
        fun _ => ⟨fun _ hfd => hfd, fun _ hfd => hfd⟩, ?_, fun _ => hruns⟩, le_refl _⟩
      intro hdriving hwaits
      simp only [SelectRelay.ask] at hdriving hwaits
      rw [if_pos hwaits] at hdriving
      cases hdriving
    · cases hstep
      exact ⟨h.of_outside _ ⟨by simp, by simp⟩, le_refl _⟩
  · rename_i errno hplace
    rw [hplace]
    cases hstep
    refine ⟨h.of_outside _ ?_, le_refl _⟩
    split
    · exact ⟨by simp, by simp⟩
    · exact ⟨by simp, by simp⟩
  · rename_i rset wset hplace
    rw [hplace]
    split at hstep
    · rename_i hdeliverable
      cases hstep
      obtain ⟨hread, hwrite, hsome⟩ := hdeliverable
      obtain ⟨hrset, hwset⟩ := h.asked hplace
      refine ⟨⟨h.inv12, h.inv21, h.fds12, h.fds21, ?_, ?_, fun _ _ => hsome,
        fun _ => h.runs (Or.inl hplace)⟩, le_refl _⟩
      · intro hnext
        cases hnext
      · intro _
        rw [← hrset, ← hwset]
        exact ⟨hread, hwrite⟩
    · cases hstep
  · rename_i answer12 answer21 hplace
    rw [hplace]
    obtain ⟨after12, h12, hstep⟩ := Option.bind_eq_some_iff.mp hstep
    obtain ⟨after21, h21, hstep⟩ := Option.bind_eq_some_iff.mp hstep
    cases hstep
    obtain ⟨hinv12, hsfd12, hdfd12, hcalls12⟩ := drive_machine h.inv12 h12
    obtain ⟨hinv21, hsfd21, hdfd21, hcalls21⟩ := drive_machine h.inv21 h21
    have hdriven := h.some_driven hne hplace
    constructor
    · have hmoved : SelectOk fd1 fd2 { relay with fsm12 := after12, fsm21 := after21, place := .left } :=
        ⟨hinv12, hinv21, ⟨hsfd12.trans h.fds12.1, hdfd12.trans h.fds12.2⟩,
          ⟨hsfd21.trans h.fds21.1, hdfd21.trans h.fds21.2⟩, by simp, by simp, by simp, by simp⟩
      exact hmoved.of_outside .head ⟨by simp, by simp⟩
    · rw [if_pos rfl]
      show relay.fsm12.calls.length + relay.fsm21.calls.length + 1 ≤
        after12.calls.length + after21.calls.length
      rcases hdriven with hdriven | hdriven
      · rw [if_pos hdriven] at hcalls12
        omega
      · rw [if_pos hdriven] at hcalls21
        omega
  · cases hstep

end Loop

/-! ## Runs -/

/-- The relay after a sequence of inputs. -/
def selectRun (fd1 fd2 : Int) (fsm12 fsm21 : FsmSt) (inputs : List SelectInput) : SelectRelay :=
  run (selectStep fd1 fd2) (selectStart fsm12 fsm21 fd1 fd2) inputs

/-- The iterations that a run has finished. -/
def iterations (fd1 fd2 : Int) (fsm12 fsm21 : FsmSt) (inputs : List SelectInput) : Nat :=
  (history (selectStep fd1 fd2) (selectStart fsm12 fsm21 fd1 fd2) inputs).countP fun input =>
    match input with
    | .drive _ _ => true
    | _ => false

theorem selectOk_start (fd1 fd2 : Int) (fsm12 fsm21 : FsmSt) :
    SelectOk fd1 fd2 (selectStart fsm12 fsm21 fd1 fd2) :=
  ⟨relayInv_start _ _ _, relayInv_start _ _ _, ⟨rfl, rfl⟩, ⟨rfl, rfl⟩, by simp [selectStart],
    by simp [selectStart], by simp [selectStart], by simp [selectStart]⟩

/-- The select relay between two descriptors.  In every run both directions relay:
nothing is lost, duplicated or reordered.  Behind `select` a machine that waits is
driven exactly when what it waits for was reported, the others are driven always, and
some machine that is not done is driven; so no iteration is idle: there are no more
iterations than system calls of the machines. -/
theorem select_relay {fd1 fd2 : Int} (hne : fd1 ≠ fd2) (fsm12 fsm21 : FsmSt)
    (inputs : List SelectInput) :
    Relayed (selectRun fd1 fd2 fsm12 fsm21 inputs).fsm12 ∧
    Relayed (selectRun fd1 fd2 fsm12 fsm21 inputs).fsm21 ∧
    ((selectRun fd1 fd2 fsm12 fsm21 inputs).place = .driving →
      ((selectRun fd1 fd2 fsm12 fsm21 inputs).drives12 fd1 fd2 = true ↔
        Ready (selectRun fd1 fd2 fsm12 fsm21 inputs).fsm12
            (selectRun fd1 fd2 fsm12 fsm21 inputs).rset
            (selectRun fd1 fd2 fsm12 fsm21 inputs).wset ∨
          waits (selectRun fd1 fd2 fsm12 fsm21 inputs).fsm12 = false) ∧
      ((selectRun fd1 fd2 fsm12 fsm21 inputs).drives21 fd1 fd2 = true ↔
        Ready (selectRun fd1 fd2 fsm12 fsm21 inputs).fsm21
            (selectRun fd1 fd2 fsm12 fsm21 inputs).rset
            (selectRun fd1 fd2 fsm12 fsm21 inputs).wset ∨
          waits (selectRun fd1 fd2 fsm12 fsm21 inputs).fsm21 = false)) ∧
    iterations fd1 fd2 fsm12 fsm21 inputs ≤
      (selectRun fd1 fd2 fsm12 fsm21 inputs).callsMade := by
  have hrun := history_induction (selectStep fd1 fd2)
    (I := fun past relay => SelectOk fd1 fd2 relay ∧
      (past.countP fun input => match input with | .drive _ _ => true | _ => false) ≤
        relay.callsMade)
    (by
      rintro past relay input next ⟨hok, hcount⟩ hstep
      obtain ⟨hnext, hcalls⟩ := selectStep_ok hok hne hstep
      refine ⟨hnext, ?_⟩
      rw [List.countP_append, List.countP_singleton]
      cases input with
      | drive answer12 answer21 =>
        have hplace : relay.place = .driving := by
          unfold selectStep at hstep
          cases hwhere : relay.place <;> simp only [hwhere] at hstep <;> first | rfl | cases hstep
        rw [hplace, if_pos rfl] at hcalls
        simp only [if_true]
        omega
      | _ =>
        simp only [Bool.false_eq_true, if_false]
        omega)
    inputs [] _ ⟨selectOk_start fd1 fd2 fsm12 fsm21, Nat.zero_le _⟩
  exact ⟨hrun.1.inv12.relayed, hrun.1.inv21.relayed, hrun.1.drives_iff hne, hrun.2⟩

/-- A machine as the stack holds it. -/
def anyFsm : FsmSt := ⟨.stateR, 0, 0, 0, 0, ByteFile.Buffer.zeros bufsize, none⟩

/-- The first descriptor is readable: only the machine that reads from it is driven. -/
theorem select_relay_readable :
    ((selectRun 3 4 anyFsm anyFsm [.loop, .ready [3] []]).place = .driving ∧
      (selectRun 3 4 anyFsm anyFsm [.loop, .ready [3] []]).drives21 3 4 = false) ∧
    iterations 3 4 anyFsm anyFsm
        [.loop, .ready [3] [], .drive (.read (.ok [7])) .nothing] ≤
      (selectRun 3 4 anyFsm anyFsm
        [.loop, .ready [3] [], .drive (.read (.ok [7])) .nothing]).callsMade :=
  ⟨by decide +kernel, (select_relay (by decide) anyFsm anyFsm
    [.loop, .ready [3] [], .drive (.read (.ok [7])) .nothing]).2.2.2⟩

end LearnApue.Stdio.Nonblock.Select
