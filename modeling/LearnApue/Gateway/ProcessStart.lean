import LearnApue.Gateway.ProcessHandle

set_option autoImplicit false

/-!
# Gateway: the start of a worker is all or nothing

`gw_process_start` acquires two pipes and two spawn objects, with calls in between
that may fail, and every failure goes to one label that releases what was acquired.
`StartShape` lists the ways it can end; what is opened and closed is then read off the
calls of each.
-/

namespace LearnApue.Gateway

open LearnApue.Foundation

/-! ## Every call by itself -/

/-- The first failure among calls that are made in a row until one fails. -/
def firstFailure (answers : List (Option Errno)) : Option Errno := answers.findSome? id

/-- What the `fcntl` calls of `configure_pipe` answer; a failed `F_GETFD` or `F_GETFL`
is one that returns a negative value. -/
structure FcntlAnswers where
  getReadFd : Option Errno
  setReadFd : Option Errno
  getWriteFd : Option Errno
  setWriteFd : Option Errno
  getReadFl : Option Errno
  setReadFl : Option Errno

/-- What the calls of `add_file_actions` answer. -/
structure FileActionAnswers where
  dupStdout : Option Errno
  dupStderr : Option Errno
  closeStdoutRead : Option Errno
  closeStdoutWrite : Option Errno
  closeStderrRead : Option Errno
  closeStderrWrite : Option Errno

/-- What the calls that set the spawn attributes answer. -/
structure AttributeAnswers where
  setFlags : Option Errno
  setGroup : Option Errno
  setDefaultSignals : Option Errno
  setSignalMask : Option Errno

/-- What each call of `gw_process_start` answers. -/
structure StartCallAnswers where
  stdoutPipe : Except Errno (Int × Int)
  stdoutFcntl : FcntlAnswers
  stderrPipe : Except Errno (Int × Int)
  stderrFcntl : FcntlAnswers
  actionsInit : Option Errno
  fileActions : FileActionAnswers
  attributesInit : Option Errno
  attributes : AttributeAnswers
  spawn : Except Errno Int

/-- The failure of the calls for close-on-exec. -/
def FcntlAnswers.cloexec (answers : FcntlAnswers) : Option Errno :=
  firstFailure [answers.getReadFd, answers.setReadFd, answers.getWriteFd, answers.setWriteFd]

/-- The failure of the calls for the nonblocking read end. -/
def FcntlAnswers.nonblock (answers : FcntlAnswers) : Option Errno :=
  firstFailure [answers.getReadFl, answers.setReadFl]

/-- `configure_pipe`, call by call. -/
def FcntlAnswers.configure (answers : FcntlAnswers) : Except GwError Unit := do
  let refuse (front : String) (answer : Option Errno) : Except GwError Unit :=
    match answer with
    | some errno => .error (ioError front errno)
    | none => .ok ()
  refuse "cannot configure close-on-exec: " answers.getReadFd
  refuse "cannot configure close-on-exec: " answers.setReadFd
  refuse "cannot configure close-on-exec: " answers.getWriteFd
  refuse "cannot configure close-on-exec: " answers.setWriteFd
  refuse "cannot make worker pipe nonblocking: " answers.getReadFl
  refuse "cannot make worker pipe nonblocking: " answers.setReadFl

/-- Only the first failure of each kind matters to it. -/
theorem FcntlAnswers.configure_eq (answers : FcntlAnswers) :
    answers.configure = configurePipe answers.cloexec answers.nonblock := by
  obtain ⟨getReadFd, setReadFd, getWriteFd, setWriteFd, getReadFl, setReadFl⟩ := answers
  cases getReadFd with
  | some errno => rfl
  | none =>
    cases setReadFd with
    | some errno => rfl
    | none =>
      cases getWriteFd with
      | some errno => rfl
      | none =>
        cases setWriteFd with
        | some errno => rfl
        | none =>
          cases getReadFl with
          | some errno => rfl
          | none => cases setReadFl <;> rfl

/-- The failures that `gw_process_start` tells apart. -/
def StartCallAnswers.merged (answers : StartCallAnswers) : StartAnswers where
  stdoutPipe := answers.stdoutPipe
  stdoutCloexec := answers.stdoutFcntl.cloexec
  stdoutNonblock := answers.stdoutFcntl.nonblock
  stderrPipe := answers.stderrPipe
  stderrCloexec := answers.stderrFcntl.cloexec
  stderrNonblock := answers.stderrFcntl.nonblock
  actionsInit := answers.actionsInit
  addFileActions :=
    firstFailure [answers.fileActions.dupStdout, answers.fileActions.dupStderr,
      answers.fileActions.closeStdoutRead, answers.fileActions.closeStdoutWrite,
      answers.fileActions.closeStderrRead, answers.fileActions.closeStderrWrite]
  attributesInit := answers.attributesInit
  setAttributes :=
    firstFailure [answers.attributes.setFlags, answers.attributes.setGroup,
      answers.attributes.setDefaultSignals, answers.attributes.setSignalMask]
  spawn := answers.spawn

/-! ## The ways a start ends -/

/-- The calls that acquired pipes, the file actions and the attributes. -/
def acquired (pipes : List (Int × Int)) (actions attributes : Bool) : List SystemCall :=
  pipes.map (fun pipe => .pipe pipe.1 pipe.2) ++ (if actions then [.initActions] else []) ++
    (if attributes then [.initAttributes] else [])

/-- Both ends of each pipe. -/
def pipeEnds (pipes : List (Int × Int)) : List Int := pipes.flatMap fun pipe => [pipe.1, pipe.2]

/-- The calls behind a successful `posix_spawnp`. -/
def handedOver (child : Int) (stdoutPipe stderrPipe : Int × Int) : List SystemCall :=
  [.spawn child, .destroyAttributes, .destroyActions] ++ closeFd stdoutPipe.2 ++
    closeFd stderrPipe.2

/-- The ways `gw_process_start` ends: a failure releases what was acquired, a success
keeps the read ends. -/
inductive StartShape (process : GwProcess) (answers : StartAnswers) : ProcessReply Unit → Prop
  | failed (error : GwError) (pipes : List (Int × Int)) (actions attributes : Bool) :
      StartShape process answers
        (startFailure process error (acquired pipes actions attributes)
          ⟨attributes, actions, pipeEnds pipes⟩)
  | started (child : Int) {stdoutPipe stderrPipe : Int × Int}
      (stdout : answers.stdoutPipe = .ok stdoutPipe)
      (stderr : answers.stderrPipe = .ok stderrPipe) :
      StartShape process answers
        ⟨⟨child, stdoutPipe.1, stderrPipe.1, true, false, 0⟩, .ok (),
          acquired [stdoutPipe, stderrPipe] true true ++ handedOver child stdoutPipe stderrPipe⟩

section Shape

variable {process : GwProcess} {answers : StartAnswers} {stdoutPipe stderrPipe : Int × Int}

theorem startSpawn_shape (program : Bytes) (hstdout : answers.stdoutPipe = .ok stdoutPipe)
    (hstderr : answers.stderrPipe = .ok stderrPipe) :
    StartShape process answers (startSpawn process program answers stdoutPipe stderrPipe
      (acquired [stdoutPipe, stderrPipe] true false)) := by
  unfold startSpawn
  cases answers.attributesInit with
  | some errno => exact .failed _ [stdoutPipe, stderrPipe] true false
  | none =>
    cases answers.setAttributes with
    | some errno => exact .failed _ [stdoutPipe, stderrPipe] true true
    | none =>
      cases answers.spawn with
      | error errno => exact .failed _ [stdoutPipe, stderrPipe] true true
      | ok child => exact .started child hstdout hstderr

theorem startStderr_shape (program : Bytes) (hstdout : answers.stdoutPipe = .ok stdoutPipe) :
    StartShape process answers
      (startStderr process program answers stdoutPipe (acquired [stdoutPipe] false false)) := by
  unfold startStderr
  cases hstderr : answers.stderrPipe with
  | error errno => exact .failed _ [stdoutPipe] false false
  | ok stderrPipe =>
    dsimp only
    cases configurePipe answers.stderrCloexec answers.stderrNonblock with
    | error error => exact .failed _ [stdoutPipe, stderrPipe] false false
    | ok configured =>
      cases answers.actionsInit with
      | some errno => exact .failed _ [stdoutPipe, stderrPipe] false false
      | none =>
        cases answers.addFileActions with
        | some errno => exact .failed _ [stdoutPipe, stderrPipe] true false
        | none => exact startSpawn_shape program hstdout hstderr

theorem gwProcessStart_shape (process : GwProcess) (arguments : List Bytes)
    (answers : StartAnswers) :
    StartShape process answers (gwProcessStart process arguments answers) := by
  unfold gwProcessStart
  cases arguments with
  | nil => exact .failed _ [] false false
  | cons program rest =>
    dsimp only
    split
    · exact .failed _ [] false false
    · cases hstdout : answers.stdoutPipe with
      | error errno => exact .failed _ [] false false
      | ok stdoutPipe =>
        dsimp only
        cases configurePipe answers.stdoutCloexec answers.stdoutNonblock with
        | error error => exact .failed _ [stdoutPipe] false false
        | ok configured => exact startStderr_shape program hstdout

end Shape

/-! ## What the calls open and close -/

/-- The descriptors that calls opened, in order. -/
def opened (calls : List SystemCall) : List Int :=
  calls.flatMap fun call =>
    match call with
    | .pipe readEnd writeEnd => [readEnd, writeEnd]
    | _ => []

/-- The descriptors that calls closed, in order. -/
def closed (calls : List SystemCall) : List Int :=
  calls.flatMap fun call =>
    match call with
    | .close descriptor => [descriptor]
    | _ => []

/-- The calls on a spawn object are one initialisation and one destruction behind it,
or none. -/
def DestroyedOnce (init destroy : SystemCall) (calls : List SystemCall) : Prop :=
  calls.filter (fun call => call = init ∨ call = destroy) = [] ∨
    calls.filter (fun call => call = init ∨ call = destroy) = [init, destroy]

section Calls

variable {pipes : List (Int × Int)} {actions attributes : Bool} {descriptors : List Int}

@[simp] theorem opened_append (first rest : List SystemCall) :
    opened (first ++ rest) = opened first ++ opened rest := List.flatMap_append

@[simp] theorem closed_append (first rest : List SystemCall) :
    closed (first ++ rest) = closed first ++ closed rest := List.flatMap_append

theorem opened_closeFd (descriptor : Int) : opened (closeFd descriptor) = [] := by
  unfold closeFd
  split <;> rfl

theorem closed_closeFd {descriptor : Int} (h : 0 ≤ descriptor) :
    closed (closeFd descriptor) = [descriptor] := by
  unfold closeFd
  rw [if_pos h]
  rfl

theorem opened_closeAll (descriptors : List Int) : opened (descriptors.flatMap closeFd) = [] := by
  induction descriptors with
  | nil => rfl
  | cons descriptor rest ih =>
    rw [List.flatMap_cons, opened_append, opened_closeFd, ih]
    rfl

theorem closed_closeAll (h : ∀ descriptor ∈ descriptors, 0 ≤ descriptor) :
    closed (descriptors.flatMap closeFd) = descriptors := by
  induction descriptors with
  | nil => rfl
  | cons descriptor rest ih =>
    obtain ⟨hfirst, hrest⟩ := List.forall_mem_cons.mp h
    rw [List.flatMap_cons, closed_append, closed_closeFd hfirst, ih hrest]
    rfl

theorem opened_pipes (pipes : List (Int × Int)) :
    opened (pipes.map fun pipe => .pipe pipe.1 pipe.2) = pipeEnds pipes := by
  induction pipes with
  | nil => rfl
  | cons pipe rest ih =>
    rw [pipeEnds, List.flatMap_cons, ← pipeEnds, ← ih]
    rfl

/-- The calls on spawn objects touch no descriptor. -/
theorem descriptors_when {call : SystemCall} (hopened : opened [call] = [])
    (hclosed : closed [call] = []) (condition : Bool) :
    opened (if condition then [call] else []) = [] ∧
      closed (if condition then [call] else []) = [] := by
  cases condition with
  | true => exact ⟨hopened, hclosed⟩
  | false => exact ⟨rfl, rfl⟩

theorem acquired_descriptors :
    opened (acquired pipes actions attributes) = pipeEnds pipes ∧
      closed (acquired pipes actions attributes) = [] := by
  have hpipes : closed (pipes.map fun pipe => .pipe pipe.1 pipe.2) = [] := by
    induction pipes with
    | nil => rfl
    | cons pipe rest ih => exact ih
  obtain ⟨hopened, hclosed⟩ := @descriptors_when .initActions rfl rfl actions
  obtain ⟨hopened', hclosed'⟩ := @descriptors_when .initAttributes rfl rfl attributes
  unfold acquired
  simp only [opened_append, closed_append, opened_pipes, hpipes, hopened, hclosed, hopened',
    hclosed', List.append_nil, and_self]

/-- The `fail` label closes the descriptors and opens none. -/
theorem cleanup_descriptors (h : ∀ descriptor ∈ descriptors, 0 ≤ descriptor) :
    opened (StartCleanup.run ⟨attributes, actions, descriptors⟩) = [] ∧
      closed (StartCleanup.run ⟨attributes, actions, descriptors⟩) = descriptors := by
  obtain ⟨hopened, hclosed⟩ := @descriptors_when .destroyActions rfl rfl actions
  obtain ⟨hopened', hclosed'⟩ := @descriptors_when .destroyAttributes rfl rfl attributes
  unfold StartCleanup.run
  simp only [opened_append, closed_append, opened_closeAll, closed_closeAll h, hopened, hclosed,
    hopened', hclosed', List.nil_append, and_self]

/-- New pipes have distinct descriptors that were not open, and the table has them
behind the open ones. -/
theorem pipes_fresh {table : KernelTable} {rest : List SystemCall}
    (h : Along Fresh table ((pipes.map fun pipe => .pipe pipe.1 pipe.2) ++ rest)) :
    (∀ descriptor ∈ pipeEnds pipes, 0 ≤ descriptor ∧ descriptor ∉ table.descriptors) ∧
      (pipeEnds pipes).Nodup ∧
      table.afterAll (pipes.map fun pipe => .pipe pipe.1 pipe.2) =
        { table with descriptors := table.descriptors ++ pipeEnds pipes } := by
  induction pipes generalizing table with
  | nil =>
    refine ⟨List.forall_mem_nil _, List.nodup_nil, ?_⟩
    rw [pipeEnds, List.flatMap_nil, List.append_nil]
    rfl
  | cons pipe pipes ih =>
    obtain ⟨⟨hread, hwrite, hne, hreadNew, hwriteNew⟩, hrest⟩ := h
    obtain ⟨hnew, hnodup, hafter⟩ := ih hrest
    have hends : pipeEnds (pipe :: pipes) = [pipe.1, pipe.2] ++ pipeEnds pipes := rfl
    have hlater : ∀ descriptor ∈ pipeEnds pipes,
        descriptor ∉ table.descriptors ∧ descriptor ≠ pipe.1 ∧ descriptor ≠ pipe.2 := by
      intro descriptor hmem
      have hnot := (hnew descriptor hmem).2
      simp only [KernelTable.after, List.mem_append, List.mem_cons, List.not_mem_nil, or_false,
        not_or] at hnot
      exact hnot
    rw [hends]
    refine ⟨?_, ?_, ?_⟩
    · intro descriptor hmem
      rcases List.mem_append.mp hmem with hfirst | hother
      · simp only [List.mem_cons, List.not_mem_nil, or_false] at hfirst
        rcases hfirst with rfl | rfl
        · exact ⟨hread, hreadNew⟩
        · exact ⟨hwrite, hwriteNew⟩
      · exact ⟨(hnew descriptor hother).1, (hlater descriptor hother).1⟩
    · refine List.nodup_append.mpr ⟨by simp [hne], hnodup, ?_⟩
      intro first hfirst other hother heq
      simp only [List.mem_cons, List.not_mem_nil, or_false] at hfirst
      obtain ⟨-, hneRead, hneWrite⟩ := hlater other hother
      rcases hfirst with rfl | rfl
      · exact hneRead heq.symm
      · exact hneWrite heq.symm
    · rw [List.map_cons, afterAll_cons, hafter]
      simp only [KernelTable.after, List.append_assoc]

/-- Calls that are allowed whatever the table is. -/
theorem along_of_forall {P : KernelTable → SystemCall → Prop} {calls : List SystemCall}
    (h : ∀ call ∈ calls, ∀ table, P table call) (table : KernelTable) : Along P table calls := by
  induction calls generalizing table with
  | nil => trivial
  | cons call rest ih =>
    obtain ⟨hfirst, hrest⟩ := List.forall_mem_cons.mp h
    exact ⟨hfirst table, ih hrest _⟩

theorem acquired_allowed (table : KernelTable) :
    Along Allowed table (acquired pipes actions attributes) := by
  refine along_of_forall (fun call hcall table => ?_) table
  unfold acquired at hcall
  rcases List.mem_append.mp hcall with hfirst | hattributes
  · rcases List.mem_append.mp hfirst with hpipe | hactions
    · obtain ⟨pipe, -, rfl⟩ := List.mem_map.mp hpipe
      trivial
    · rw [List.mem_ite_nil_right] at hactions
      rw [List.mem_singleton.mp hactions.2]
      trivial
  · rw [List.mem_ite_nil_right] at hattributes
    rw [List.mem_singleton.mp hattributes.2]
    trivial

/-- What was acquired is open. -/
theorem acquired_open {table : KernelTable} {rest : List SystemCall}
    (h : Along Fresh table (acquired pipes actions attributes ++ rest)) :
    (∀ descriptor ∈ pipeEnds pipes, 0 ≤ descriptor ∧ descriptor ∉ table.descriptors) ∧
      (pipeEnds pipes).Nodup ∧
      table.afterAll (acquired pipes actions attributes) =
        { table with descriptors := table.descriptors ++ pipeEnds pipes } := by
  unfold acquired at h ⊢
  rw [List.append_assoc, List.append_assoc] at h
  obtain ⟨hnew, hnodup, hafter⟩ := pipes_fresh h
  refine ⟨hnew, hnodup, ?_⟩
  rw [afterAll_append, afterAll_append, hafter]
  cases actions <;> cases attributes <;> rfl

/-! ## The spawn objects -/

theorem filter_closeFd {keep : SystemCall → Bool} (h : ∀ descriptor, keep (.close descriptor) = false)
    (descriptor : Int) : (closeFd descriptor).filter keep = [] := by
  unfold closeFd
  split
  · rw [List.filter_cons_of_neg (by rw [h]; simp)]
    rfl
  · rfl

/-- Of what was acquired only the spawn objects count. -/
theorem filter_acquired {keep : SystemCall → Bool}
    (h : ∀ readEnd writeEnd, keep (.pipe readEnd writeEnd) = false) :
    (acquired pipes actions attributes).filter keep =
      (acquired [] actions attributes).filter keep := by
  have hpipes : (pipes.map fun pipe => SystemCall.pipe pipe.1 pipe.2).filter keep = [] := by
    refine List.filter_eq_nil_iff.mpr fun call hcall => ?_
    obtain ⟨pipe, -, rfl⟩ := List.mem_map.mp hcall
    rw [h]
    simp
  unfold acquired
  simp only [List.filter_append, hpipes, List.map_nil, List.filter_nil]

theorem filter_cleanup {keep : SystemCall → Bool}
    (h : ∀ descriptor, keep (.close descriptor) = false) :
    (StartCleanup.run ⟨attributes, actions, descriptors⟩).filter keep =
      (StartCleanup.run ⟨attributes, actions, []⟩).filter keep := by
  have hclosed : (descriptors.flatMap closeFd).filter keep = [] := by
    induction descriptors with
    | nil => rfl
    | cons descriptor rest ih =>
      rw [List.flatMap_cons, List.filter_append, filter_closeFd h, ih]
      rfl
  unfold StartCleanup.run
  simp only [List.filter_append, hclosed, List.flatMap_nil, List.filter_nil]

/-- Two spawn objects that a failure destroys were initialised, each once. -/
theorem destroyedOnce_failed :
    DestroyedOnce .initActions .destroyActions
        (acquired pipes actions attributes ++ StartCleanup.run ⟨attributes, actions, descriptors⟩) ∧
      DestroyedOnce .initAttributes .destroyAttributes
        (acquired pipes actions attributes ++
          StartCleanup.run ⟨attributes, actions, descriptors⟩) := by
  unfold DestroyedOnce
  constructor
  · rw [List.filter_append, filter_acquired (fun _ _ => rfl), filter_cleanup (fun _ => rfl)]
    cases actions <;> cases attributes <;> decide
  · rw [List.filter_append, filter_acquired (fun _ _ => rfl), filter_cleanup (fun _ => rfl)]
    cases actions <;> cases attributes <;> decide

theorem destroyedOnce_started (child : Int) (stdoutPipe stderrPipe : Int × Int) :
    DestroyedOnce .initActions .destroyActions
        (acquired pipes true true ++ handedOver child stdoutPipe stderrPipe) ∧
      DestroyedOnce .initAttributes .destroyAttributes
        (acquired pipes true true ++ handedOver child stdoutPipe stderrPipe) := by
  unfold DestroyedOnce handedOver
  simp only [List.filter_append]
  constructor
  · rw [filter_acquired (fun _ _ => rfl), filter_closeFd (fun _ => rfl),
      filter_closeFd (fun _ => rfl)]
    exact Or.inr rfl
  · rw [filter_acquired (fun _ _ => rfl), filter_closeFd (fun _ => rfl),
      filter_closeFd (fun _ => rfl)]
    exact Or.inr rfl

end Calls

/-! ## The start -/

/-- A start is all or nothing.  Every close meets an open descriptor, every spawn
object is destroyed once; a failure leaves the handle and the table as they were, and
a success leaves the two read ends, in the handle. -/
structure StartAtomic (process : GwProcess) (answers : StartAnswers) (table : KernelTable)
    (reply : ProcessReply Unit) : Prop where
  allowed : Along Allowed table reply.calls
  distinct : (opened reply.calls).Nodup
  actions : DestroyedOnce .initActions .destroyActions reply.calls
  attributes : DestroyedOnce .initAttributes .destroyAttributes reply.calls
  failed : ∀ error, reply.result = .error error →
    reply.process = process ∧ closed reply.calls = opened reply.calls ∧
      table.afterAll reply.calls = table
  started : reply.result = .ok () →
    ∃ stdoutWrite stderrWrite,
      answers.stdoutPipe = .ok (reply.process.stdoutFd, stdoutWrite) ∧
      answers.stderrPipe = .ok (reply.process.stderrFd, stderrWrite) ∧
      opened reply.calls =
        [reply.process.stdoutFd, stdoutWrite, reply.process.stderrFd, stderrWrite] ∧
      closed reply.calls = [stdoutWrite, stderrWrite] ∧
      (table.afterAll reply.calls).descriptors =
        table.descriptors ++ [reply.process.stdoutFd, reply.process.stderrFd]

section Start

variable {process : GwProcess} {answers : StartAnswers} {table : KernelTable}

theorem startFailure_atomic (error : GwError) (pipes : List (Int × Int))
    (actions attributes : Bool)
    (hfresh : Along Fresh table (startFailure process error (acquired pipes actions attributes)
      ⟨attributes, actions, pipeEnds pipes⟩).calls) :
    StartAtomic process answers table
      (startFailure process error (acquired pipes actions attributes)
        ⟨attributes, actions, pipeEnds pipes⟩) := by
  obtain ⟨hnew, hnodup, hafter⟩ := acquired_open hfresh
  obtain ⟨hactions, hattributes⟩ := @destroyedOnce_failed pipes actions attributes (pipeEnds pipes)
  obtain ⟨hopened, hclosed⟩ := @acquired_descriptors pipes actions attributes
  obtain ⟨hopened', hclosed'⟩ := @cleanup_descriptors actions attributes (pipeEnds pipes)
    fun descriptor hmem => (hnew descriptor hmem).1
  have hopen : (table.afterAll (acquired pipes actions attributes)).descriptors =
      table.descriptors ++ pipeEnds pipes := by rw [hafter]
  obtain ⟨hallowed, hend⟩ := @cleanup_allowed table.descriptors
    ⟨attributes, actions, pipeEnds pipes⟩ hnew _ hopen
  unfold startFailure
  refine ⟨along_append.mpr ⟨acquired_allowed table, hallowed⟩, ?_, hactions, hattributes, ?_,
    fun h => nomatch h⟩
  · rw [opened_append, hopened, hopened', List.append_nil]
    exact hnodup
  · intro error herror
    refine ⟨rfl, ?_, ?_⟩
    · rw [opened_append, closed_append, hopened, hopened', hclosed, hclosed', List.append_nil,
        List.nil_append]
    · rw [afterAll_append, hend, hafter]

/-- A success closes the write ends only. -/
theorem started_atomic (child : Int) {stdoutPipe stderrPipe : Int × Int}
    (hstdout : answers.stdoutPipe = .ok stdoutPipe) (hstderr : answers.stderrPipe = .ok stderrPipe)
    (hfresh : Along Fresh table
      (acquired [stdoutPipe, stderrPipe] true true ++ handedOver child stdoutPipe stderrPipe)) :
    StartAtomic process answers table
      ⟨⟨child, stdoutPipe.1, stderrPipe.1, true, false, 0⟩, .ok (),
        acquired [stdoutPipe, stderrPipe] true true ++
          handedOver child stdoutPipe stderrPipe⟩ := by
  obtain ⟨readOut, writeOut⟩ := stdoutPipe
  obtain ⟨readErr, writeErr⟩ := stderrPipe
  obtain ⟨hnew, hnodup, hafter⟩ := acquired_open hfresh
  obtain ⟨hactions, hattributes⟩ := @destroyedOnce_started [(readOut, writeOut), (readErr, writeErr)]
    child (readOut, writeOut) (readErr, writeErr)
  obtain ⟨hopened, hclosed⟩ :=
    @acquired_descriptors [(readOut, writeOut), (readErr, writeErr)] true true
  have hends : pipeEnds [(readOut, writeOut), (readErr, writeErr)] =
      [readOut, writeOut, readErr, writeErr] := rfl
  rw [hends] at hnew hnodup hafter hopened
  have hdistinct := hnodup
  simp only [List.nodup_cons, List.mem_cons, List.not_mem_nil, or_false, not_or] at hdistinct
  simp only [List.forall_mem_cons] at hnew
  obtain ⟨-, ⟨hwriteOut, hwriteOutNew⟩, -, ⟨hwriteErr, hwriteErrNew⟩, -⟩ := hnew
  -- the child, then the write ends that only the child keeps
  have hspawned : KernelTable.afterAll { table with
      descriptors := table.descriptors ++ [readOut, writeOut, readErr, writeErr] }
        [.spawn child, .destroyAttributes, .destroyActions] =
          ⟨table.children ++ [child],
            table.descriptors ++ [readOut, writeOut, readErr, writeErr]⟩ := rfl
  obtain ⟨hout, hafterOut⟩ := @closeFd_allowed
    ⟨table.children ++ [child], table.descriptors ++ [readOut, writeOut, readErr, writeErr]⟩
    writeOut (table.descriptors ++ [readOut]) [readErr, writeErr] (by simp [owned, hwriteOut])
    (by simp [hwriteOutNew, Ne.symm hdistinct.1.1])
  obtain ⟨herr, hafterErr⟩ := @closeFd_allowed
    ⟨table.children ++ [child], table.descriptors ++ [readOut] ++ [readErr, writeErr]⟩
    writeErr (table.descriptors ++ [readOut, readErr]) [] (by simp [owned, hwriteErr])
    (by simp [hwriteErrNew, Ne.symm hdistinct.1.2.2, Ne.symm hdistinct.2.2.1])
  have hcloses : closed (handedOver child (readOut, writeOut) (readErr, writeErr)) =
      [writeOut, writeErr] := by
    unfold handedOver
    rw [closed_append, closed_append, closed_closeFd hwriteOut, closed_closeFd hwriteErr]
    rfl
  have hopens : opened (handedOver child (readOut, writeOut) (readErr, writeErr)) = [] := by
    unfold handedOver
    rw [opened_append, opened_append, opened_closeFd, opened_closeFd]
    rfl
  refine ⟨?_, ?_, hactions, hattributes, ?_, fun _ =>
    ⟨writeOut, writeErr, hstdout, hstderr, ?_, ?_, ?_⟩⟩
  · refine along_append.mpr ⟨acquired_allowed table, ?_⟩
    unfold handedOver
    simp only [along_append, afterAll_append, hafter, hspawned, hafterOut]
    exact ⟨⟨⟨trivial, trivial, trivial, trivial⟩, hout⟩, herr⟩
  · rw [opened_append, hopened, hopens]
    exact hnodup
  · intro error herror
    cases herror
  · rw [opened_append, hopened, hopens]
    rfl
  · rw [closed_append, hclosed, hcloses]
    rfl
  · unfold handedOver
    simp only [afterAll_append, hafter, hspawned, hafterOut, hafterErr, List.append_nil]

end Start

/-- Whatever each call of a start answers, the start is all or nothing. -/
theorem gwProcessStart_atomic (process : GwProcess) (arguments : List Bytes)
    (answers : StartCallAnswers) (table : KernelTable)
    (hfresh : Along Fresh table (gwProcessStart process arguments answers.merged).calls) :
    StartAtomic process answers.merged table
      (gwProcessStart process arguments answers.merged) := by
  have hshape := gwProcessStart_shape process arguments answers.merged
  generalize gwProcessStart process arguments answers.merged = reply at hfresh hshape ⊢
  cases hshape with
  | failed error pipes actions attributes =>
    exact startFailure_atomic error pipes actions attributes hfresh
  | started child hstdout hstderr => exact started_atomic child hstdout hstderr hfresh

/-- Answers of a start that finds no second pipe. -/
def oneFreePipe : StartCallAnswers where
  stdoutPipe := .ok (3, 4)
  stdoutFcntl := ⟨none, none, none, none, none, none⟩
  stderrPipe := .error ⟨24, ascii "Too many open files"⟩
  stderrFcntl := ⟨none, none, none, none, none, none⟩
  actionsInit := none
  fileActions := ⟨none, none, none, none, none, none⟩
  attributesInit := none
  attributes := ⟨none, none, none, none⟩
  spawn := .ok 77

/-- The first pipe is closed again. -/
theorem gwProcessStart_atomic_one :
    (gwProcessStart gwProcessInit [ascii "ffmpeg"] oneFreePipe.merged).calls =
        [.pipe 3 4, .close 3, .close 4] ∧
      StartAtomic gwProcessInit oneFreePipe.merged ⟨[], [0, 1, 2]⟩
        (gwProcessStart gwProcessInit [ascii "ffmpeg"] oneFreePipe.merged) :=
  ⟨rfl, gwProcessStart_atomic gwProcessInit [ascii "ffmpeg"] oneFreePipe ⟨[], [0, 1, 2]⟩ (by decide)⟩

end LearnApue.Gateway
