import LearnApue.Gateway.Error

set_option autoImplicit false

/-!
# Gateway: the worker process handle (`process_manager.h`, `process_manager.c`)

Each function takes the answers of the system calls it makes, in the order it makes
them, and returns the handle, the result, and the calls that meet something outside
the handle.  `waitpid` on the worker's pid answers with the worker or not at all, and
`poll` and `read` belong to the callers.
-/

namespace LearnApue.Gateway

open LearnApue.Foundation

/-! ## Time -/

/-- A normalised `struct timespec` of a clock that counts up from zero. -/
structure Timespec where
  sec : Int
  nsec : Int
  secNonneg : 0 ≤ sec
  secFits : sec < 2 ^ 63
  nsecNonneg : 0 ≤ nsec
  nsecFits : nsec < 1000000000
  deriving DecidableEq

/-- The time in nanoseconds. -/
def Timespec.nanoseconds (time : Timespec) : Int := time.sec * 1000000000 + time.nsec

/-- `clock_gettime(CLOCK_MONOTONIC, …)`: the time, or a failure. -/
abbrev ClockAnswer : Type := Option Timespec

/-- `make_deadline`: seconds and nanoseconds; a failed clock read leaves zero. -/
def makeDeadline (clock : ClockAnswer) (timeoutMs : Int) : Int × Int :=
  let start := (clock.map fun now => (now.sec, now.nsec)).getD (0, 0)
  let sec := start.1 + timeoutMs.tdiv 1000
  let nsec := start.2 + timeoutMs.tmod 1000 * 1000000
  if nsec ≥ 1000000000 then (sec + 1, nsec - 1000000000) else (sec, nsec)

/-- `deadline_reached`. -/
def deadlineReached (clock : ClockAnswer) (deadline : Int × Int) : Bool :=
  match clock with
  | none => true
  | some now => now.sec > deadline.1 || (now.sec = deadline.1 && now.nsec ≥ deadline.2)

/-! ## The handle and its calls -/

/-- `gw_process`. -/
structure GwProcess where
  pid : Int
  stdoutFd : Int
  stderrFd : Int
  running : Bool
  reaped : Bool
  waitStatus : Int
  deriving DecidableEq

/-- `gw_process_init`. -/
def gwProcessInit : GwProcess := ⟨-1, -1, -1, false, false, 0⟩

/-- `gw_process_stream`. -/
inductive GwProcessStream where
  | stdout
  | stderr
  deriving DecidableEq, Repr

/-- The signals the manager sends. -/
inductive StopSignal where
  | sigterm
  | sigkill
  deriving DecidableEq, Repr

/-- The system calls that meet something outside the handle. -/
inductive SystemCall where
  /-- `pipe` succeeded: read end, write end -/
  | pipe (readEnd writeEnd : Int)
  | close (descriptor : Int)
  | initActions
  | destroyActions
  | initAttributes
  | destroyAttributes
  /-- `posix_spawnp` succeeded -/
  | spawn (pid : Int)
  /-- `kill(-pid, …)`, whether or not it succeeds -/
  | killGroup (pid : Int) (signal : StopSignal)
  /-- `waitpid(pid, …)`, whatever it answers -/
  | wait (pid : Int)
  /-- `waitpid` reported the worker -/
  | reap (pid status : Int)
  deriving DecidableEq, Repr

/-- What `waitpid(process->pid, …)` answers: nothing yet, the worker's status, or a
failure. -/
inductive WaitAnswer where
  | none
  | status (status : Int)
  | failed (errno : Errno)

/-- The end of a call: the handle, the result, and the calls made. -/
structure ProcessReply (α : Type) where
  process : GwProcess
  result : Except GwError α
  calls : List SystemCall

/-- `close_fd` on an owned descriptor: the calls made. -/
def closeFd (descriptor : Int) : List SystemCall :=
  if descriptor ≥ 0 then [.close descriptor] else []

/-- The failures of a system call, with the message's front. -/
def ioError (front : String) (errno : Errno) : GwError :=
  gwErrorSet .errIo (ascii front ++ errno.text)

/-! ## Starting -/

/-- What the calls of `gw_process_start` answer; `none` is success where a call has
no other result. -/
structure StartAnswers where
  stdoutPipe : Except Errno (Int × Int)
  stdoutCloexec : Option Errno
  stdoutNonblock : Option Errno
  stderrPipe : Except Errno (Int × Int)
  stderrCloexec : Option Errno
  stderrNonblock : Option Errno
  actionsInit : Option Errno
  addFileActions : Option Errno
  attributesInit : Option Errno
  setAttributes : Option Errno
  spawn : Except Errno Int

/-- `configure_pipe`. -/
def configurePipe (cloexec nonblock : Option Errno) : Except GwError Unit :=
  match cloexec with
  | some errno => .error (ioError "cannot configure close-on-exec: " errno)
  | none =>
      match nonblock with
      | some errno => .error (ioError "cannot make worker pipe nonblocking: " errno)
      | none => .ok ()

/-- What the `fail` label of `gw_process_start` releases. -/
structure StartCleanup where
  attributes : Bool
  actions : Bool
  descriptors : List Int

/-- The `fail` label: the calls made. -/
def StartCleanup.run (cleanup : StartCleanup) : List SystemCall :=
  (if cleanup.attributes then [.destroyAttributes] else []) ++
    (if cleanup.actions then [.destroyActions] else []) ++ cleanup.descriptors.flatMap closeFd

/-- A failed start: every error after the first `pipe` returns `GW_ERR_IO`. -/
def startFailure (process : GwProcess) (error : GwError) (calls : List SystemCall)
    (cleanup : StartCleanup) : ProcessReply Unit :=
  ⟨process, .error error, calls ++ cleanup.run⟩

/-- `gw_process_start` from the spawn attributes on. -/
def startSpawn (process : GwProcess) (program : Bytes) (answers : StartAnswers)
    (stdoutPipe stderrPipe : Int × Int) (calls : List SystemCall) : ProcessReply Unit :=
  let descriptors := [stdoutPipe.1, stdoutPipe.2, stderrPipe.1, stderrPipe.2]
  match answers.attributesInit with
  | some errno =>
      startFailure process (ioError "cannot initialize spawn attributes: " errno) calls
        ⟨false, true, descriptors⟩
  | none =>
      let calls := calls ++ [.initAttributes]
      match answers.setAttributes with
      | some errno =>
          startFailure process (ioError "cannot configure worker spawn attributes: " errno) calls
            ⟨true, true, descriptors⟩
      | none =>
          match answers.spawn with
          | .error errno =>
              startFailure process
                (gwErrorSet .errIo
                  (ascii "cannot start worker '" ++ program ++ ascii "': " ++ errno.text))
                calls ⟨true, true, descriptors⟩
          | .ok child =>
              ⟨⟨child, stdoutPipe.1, stderrPipe.1, true, false, 0⟩, .ok (),
                calls ++ [.spawn child, .destroyAttributes, .destroyActions] ++
                  closeFd stdoutPipe.2 ++ closeFd stderrPipe.2⟩

/-- `gw_process_start` from the second pipe on. -/
def startStderr (process : GwProcess) (program : Bytes) (answers : StartAnswers)
    (stdoutPipe : Int × Int) (calls : List SystemCall) : ProcessReply Unit :=
  match answers.stderrPipe with
  | .error errno =>
      startFailure process (ioError "cannot create stderr pipe: " errno) calls
        ⟨false, false, [stdoutPipe.1, stdoutPipe.2]⟩
  | .ok stderrPipe =>
      let calls := calls ++ [.pipe stderrPipe.1 stderrPipe.2]
      let descriptors := [stdoutPipe.1, stdoutPipe.2, stderrPipe.1, stderrPipe.2]
      match configurePipe answers.stderrCloexec answers.stderrNonblock with
      | .error error => startFailure process error calls ⟨false, false, descriptors⟩
      | .ok _ =>
          match answers.actionsInit with
          | some errno =>
              startFailure process (ioError "cannot initialize spawn file actions: " errno) calls
                ⟨false, false, descriptors⟩
          | none =>
              let calls := calls ++ [.initActions]
              match answers.addFileActions with
              | some errno =>
                  startFailure process (ioError "cannot configure worker file actions: " errno)
                    calls ⟨false, true, descriptors⟩
              | none => startSpawn process program answers stdoutPipe stderrPipe calls

/-- `gw_process_start`. -/
def gwProcessStart (process : GwProcess) (arguments : List Bytes) (answers : StartAnswers) :
    ProcessReply Unit :=
  match arguments with
  | [] => ⟨process, .error (gwErrorSet .errArgument (ascii "worker arguments are required")), []⟩
  | program :: _ =>
      if process.running || process.pid > 0 then
        ⟨process, .error (gwErrorSet .errValidation (ascii "worker process is already active")), []⟩
      else
        match answers.stdoutPipe with
        | .error errno => ⟨process, .error (ioError "cannot create stdout pipe: " errno), []⟩
        | .ok stdoutPipe =>
            let calls := [.pipe stdoutPipe.1 stdoutPipe.2]
            match configurePipe answers.stdoutCloexec answers.stdoutNonblock with
            | .error error =>
                startFailure process error calls ⟨false, false, [stdoutPipe.1, stdoutPipe.2]⟩
            | .ok _ => startStderr process program answers stdoutPipe calls

/-! ## Reading -/

/-- What `read` answers: the bytes read, none at end of file, or a failure. -/
abbrev ReadAnswer : Type := Except Errno Bytes

/-- What `gw_process_read` hands out. -/
structure ReadResult where
  data : Bytes
  endOfStream : Bool
  deriving DecidableEq

/-- The descriptor of a stream. -/
def GwProcess.descriptor (process : GwProcess) : GwProcessStream → Int
  | .stdout => process.stdoutFd
  | .stderr => process.stderrFd

/-- The handle after its descriptor for a stream is closed. -/
def GwProcess.closed (process : GwProcess) : GwProcessStream → GwProcess
  | .stdout => { process with stdoutFd := -1 }
  | .stderr => { process with stderrFd := -1 }

/-- `gw_process_read`. -/
def gwProcessRead (process : GwProcess) (stream : GwProcessStream) (answer : ReadAnswer) :
    ProcessReply ReadResult :=
  if process.descriptor stream < 0 then ⟨process, .ok ⟨[], true⟩, []⟩
  else
    match answer with
    | .ok (b :: rest) => ⟨process, .ok ⟨b :: rest, false⟩, []⟩
    | .ok [] =>
        ⟨process.closed stream, .ok ⟨[], true⟩, closeFd (process.descriptor stream)⟩
    | .error errno =>
        if errno.code = eagain ∨ errno.code = eintr then ⟨process, .ok ⟨[], false⟩, []⟩
        else ⟨process, .error (ioError "cannot read worker stream: " errno), []⟩

/-! ## Reaping -/

/-- The handle of a reaped worker. -/
def GwProcess.afterReap (process : GwProcess) (status : Int) : GwProcess :=
  { process with running := false, reaped := true, waitStatus := status }

/-- `gw_process_poll_exit`. -/
def gwProcessPollExit (process : GwProcess) (answer : WaitAnswer) : ProcessReply Bool :=
  if process.reaped then ⟨process, .ok true, []⟩
  else if process.pid ≤ 0 then
    ⟨process, .error (gwErrorSet .errValidation (ascii "worker process has not been started")), []⟩
  else
    match answer with
    | .none => ⟨process, .ok false, [.wait process.pid]⟩
    | .status status =>
        ⟨process.afterReap status, .ok true, [.wait process.pid, .reap process.pid status]⟩
    | .failed errno =>
        if errno.code = eintr then ⟨process, .ok false, [.wait process.pid]⟩
        else
          ⟨process, .error (ioError "cannot inspect worker process: " errno), [.wait process.pid]⟩

/-- What the calls of `gw_process_stop` answer.  `rounds` are the clock and, while
the deadline is not reached, the `waitpid` of each turn of the loop; `waits` are the
blocking `waitpid` calls after `SIGKILL`. -/
structure StopAnswers where
  terminate : Option Errno
  deadlineClock : ClockAnswer
  rounds : List (ClockAnswer × WaitAnswer)
  lastPoll : WaitAnswer
  kill : Option Errno
  waits : List WaitAnswer

/-- `wait_after_kill`; `none` while the worker is still waited for. -/
def waitAfterKill (process : GwProcess) : List WaitAnswer → Option (ProcessReply Unit)
  | [] => none
  | .failed errno :: rest =>
      if errno.code = eintr then
        (waitAfterKill process rest).map fun reply =>
          { reply with calls := .wait process.pid :: reply.calls }
      else
        some ⟨process, .error (ioError "cannot reap worker process: " errno), [.wait process.pid]⟩
  | .none :: _ =>
      -- `waitpid` without `WNOHANG` has no such answer
      some ⟨process, .error (ioError "cannot reap worker process: " ⟨0, []⟩), [.wait process.pid]⟩
  | .status status :: _ =>
      some ⟨process.afterReap status, .ok (), [.wait process.pid, .reap process.pid status]⟩

/-- The end of a loop turn that is over: an error, an exit, or the rest. -/
def afterPoll (reply : ProcessReply Bool) (calls : List SystemCall)
    (rest : GwProcess → List SystemCall → Option (ProcessReply Unit)) :
    Option (ProcessReply Unit) :=
  match reply.result with
  | .error error => some ⟨reply.process, .error error, calls ++ reply.calls⟩
  | .ok true => some ⟨reply.process, .ok (), calls ++ reply.calls⟩
  | .ok false => rest reply.process (calls ++ reply.calls)

/-- `gw_process_stop` after the deadline: the last poll, then `SIGKILL`. -/
def stopEscalate (answers : StopAnswers) (process : GwProcess) (calls : List SystemCall) :
    Option (ProcessReply Unit) :=
  afterPoll (gwProcessPollExit process answers.lastPoll) calls fun process calls =>
    match answers.kill.filter fun errno => errno.code ≠ esrch with
    | some errno =>
        some ⟨process, .error (ioError "cannot kill worker process group: " errno),
          calls ++ [.killGroup process.pid .sigkill]⟩
    | none =>
        (waitAfterKill process answers.waits).map fun reply =>
          { reply with calls := calls ++ [.killGroup process.pid .sigkill] ++ reply.calls }

/-- The loop of `gw_process_stop`. -/
def stopLoop (answers : StopAnswers) (deadline : Int × Int) :
    List (ClockAnswer × WaitAnswer) → GwProcess → List SystemCall → Option (ProcessReply Unit)
  | [], _, _ => none
  | (clock, wait) :: rest, process, calls =>
      if deadlineReached clock deadline then stopEscalate answers process calls
      else afterPoll (gwProcessPollExit process wait) calls (stopLoop answers deadline rest)

/-- `gw_process_stop`; `none` while the call has not returned. -/
def gwProcessStop (process : GwProcess) (timeoutMs : Int) (answers : StopAnswers) :
    Option (ProcessReply Unit) :=
  if timeoutMs < 0 then
    some ⟨process, .error (gwErrorSet .errArgument
      (ascii "worker and non-negative timeout are required")), []⟩
  else if process.reaped then some ⟨process, .ok (), []⟩
  else if process.pid ≤ 0 then
    some ⟨process, .error (gwErrorSet .errValidation
      (ascii "worker process has not been started")), []⟩
  else
    match answers.terminate.filter fun errno => errno.code ≠ esrch with
    | some errno =>
        some ⟨process, .error (ioError "cannot terminate worker process group: " errno),
          [.killGroup process.pid .sigterm]⟩
    | none =>
        stopLoop answers (makeDeadline answers.deadlineClock timeoutMs) answers.rounds process
          [.killGroup process.pid .sigterm]

/-- `gw_process_exit_code`, with the macros of `<sys/wait.h>` on the wait status. -/
def gwProcessExitCode (process : GwProcess) : Int :=
  if !process.reaped then -1
  else if process.waitStatus % 128 = 0 then process.waitStatus / 256 % 256
  else if process.waitStatus % 128 < 127 then 128 + process.waitStatus % 128
  else -1

/-- `gw_process_close`. -/
def gwProcessClose (process : GwProcess) : ProcessReply Unit :=
  if process.running then
    ⟨process, .error (gwErrorSet .errValidation (ascii "cannot close a running worker process")), []⟩
  else
    ⟨{ process with pid := -1, stdoutFd := -1, stderrFd := -1 }, .ok (),
      closeFd process.stdoutFd ++ closeFd process.stderrFd⟩

/-! ## What the calls keep -/

/-- The two flags of a started handle. -/
def GwProcess.Started (process : GwProcess) : Prop := process.running = !process.reaped

/-- What stopping does to the handle: the descriptors stay, and a success means that
the worker is reaped. -/
structure StopEffect (process : GwProcess) (reply : ProcessReply Unit) : Prop where
  started : process.Started → reply.process.Started
  reaped : reply.result = .ok () → reply.process.reaped = true
  stdoutFd : reply.process.stdoutFd = process.stdoutFd
  stderrFd : reply.process.stderrFd = process.stderrFd

theorem gwProcessRead_started (process : GwProcess) (stream : GwProcessStream)
    (answer : ReadAnswer) (h : process.Started) :
    (gwProcessRead process stream answer).process.Started := by
  unfold gwProcessRead
  split
  · exact h
  · split
    · exact h
    · cases stream <;> exact h
    · split <;> exact h

/-- The exit poll keeps the handle, and reaps it when it reports an exit. -/
theorem gwProcessPollExit_effect (process : GwProcess) (answer : WaitAnswer) :
    (process.Started → (gwProcessPollExit process answer).process.Started) ∧
      ((gwProcessPollExit process answer).result = .ok true →
        (gwProcessPollExit process answer).process.reaped = true) ∧
      (gwProcessPollExit process answer).process.stdoutFd = process.stdoutFd ∧
      (gwProcessPollExit process answer).process.stderrFd = process.stderrFd := by
  unfold gwProcessPollExit
  split
  · rename_i hreaped
    exact ⟨id, fun _ => hreaped, rfl, rfl⟩
  · split
    · exact ⟨id, fun h => by simp at h, rfl, rfl⟩
    · cases answer with
      | none => exact ⟨id, fun h => by simp at h, rfl, rfl⟩
      | status status => exact ⟨fun _ => rfl, fun _ => rfl, rfl, rfl⟩
      | failed errno =>
        dsimp only
        split
        · exact ⟨id, fun h => by simp at h, rfl, rfl⟩
        · exact ⟨id, fun h => by simp at h, rfl, rfl⟩

theorem waitAfterKill_effect {process : GwProcess} {waits : List WaitAnswer}
    {reply : ProcessReply Unit} (h : waitAfterKill process waits = some reply) :
    StopEffect process reply := by
  induction waits generalizing reply with
  | nil => simp [waitAfterKill] at h
  | cons answer rest ih =>
    cases answer with
    | none =>
      rw [waitAfterKill, Option.some.injEq] at h
      rw [← h]
      exact ⟨id, fun hok => by simp at hok, rfl, rfl⟩
    | status status =>
      rw [waitAfterKill, Option.some.injEq] at h
      rw [← h]
      exact ⟨fun _ => rfl, fun _ => rfl, rfl, rfl⟩
    | failed errno =>
      rw [waitAfterKill] at h
      split at h
      · obtain ⟨waited, hwaited, heq⟩ := Option.map_eq_some_iff.mp h
        have heffect := ih hwaited
        rw [← heq]
        exact ⟨heffect.started, heffect.reaped, heffect.stdoutFd, heffect.stderrFd⟩
      · rw [Option.some.injEq] at h
        rw [← h]
        exact ⟨id, fun hok => by simp at hok, rfl, rfl⟩

/-- A loop turn of the stop: its poll, then what follows. -/
theorem afterPoll_effect {process : GwProcess} {answer : WaitAnswer} {calls : List SystemCall}
    {rest : GwProcess → List SystemCall → Option (ProcessReply Unit)} {reply : ProcessReply Unit}
    (hrest : ∀ process calls, rest process calls = some reply → StopEffect process reply)
    (h : afterPoll (gwProcessPollExit process answer) calls rest = some reply) :
    StopEffect process reply := by
  obtain ⟨hstarted, hreaped, hstdout, hstderr⟩ := gwProcessPollExit_effect process answer
  unfold afterPoll at h
  split at h
  · rw [Option.some.injEq] at h
    rw [← h]
    exact ⟨hstarted, fun hok => by simp at hok, hstdout, hstderr⟩
  · rename_i hresult
    rw [Option.some.injEq] at h
    rw [← h]
    exact ⟨hstarted, fun _ => hreaped hresult, hstdout, hstderr⟩
  · have heffect := hrest _ _ h
    exact ⟨fun hp => heffect.started (hstarted hp), heffect.reaped, heffect.stdoutFd.trans hstdout,
      heffect.stderrFd.trans hstderr⟩

theorem stopEscalate_effect {answers : StopAnswers} {process : GwProcess} {calls : List SystemCall}
    {reply : ProcessReply Unit} (h : stopEscalate answers process calls = some reply) :
    StopEffect process reply := by
  refine afterPoll_effect ?_ h
  intro process calls hrest
  split at hrest
  · rw [Option.some.injEq] at hrest
    rw [← hrest]
    exact ⟨id, fun hok => by simp at hok, rfl, rfl⟩
  · obtain ⟨waited, hwaited, heq⟩ := Option.map_eq_some_iff.mp hrest
    have heffect := waitAfterKill_effect hwaited
    rw [← heq]
    exact ⟨heffect.started, heffect.reaped, heffect.stdoutFd, heffect.stderrFd⟩

theorem stopLoop_effect {answers : StopAnswers} {deadline : Int × Int}
    {rounds : List (ClockAnswer × WaitAnswer)} {process : GwProcess} {calls : List SystemCall}
    {reply : ProcessReply Unit} (h : stopLoop answers deadline rounds process calls = some reply) :
    StopEffect process reply := by
  induction rounds generalizing process calls with
  | nil => simp [stopLoop] at h
  | cons turn rest ih =>
    obtain ⟨clock, wait⟩ := turn
    rw [stopLoop] at h
    split at h
    · exact stopEscalate_effect h
    · exact afterPoll_effect (fun process calls hrest => ih hrest) h

theorem gwProcessStop_effect {process : GwProcess} {timeoutMs : Int} {answers : StopAnswers}
    {reply : ProcessReply Unit} (h : gwProcessStop process timeoutMs answers = some reply) :
    StopEffect process reply := by
  unfold gwProcessStop at h
  split at h
  · rw [Option.some.injEq] at h
    rw [← h]
    exact ⟨id, fun hok => by simp at hok, rfl, rfl⟩
  · split at h
    · rename_i hreaped
      rw [Option.some.injEq] at h
      rw [← h]
      exact ⟨id, fun _ => hreaped, rfl, rfl⟩
    · split at h
      · rw [Option.some.injEq] at h
        rw [← h]
        exact ⟨id, fun hok => by simp at hok, rfl, rfl⟩
      · split at h
        · rw [Option.some.injEq] at h
          rw [← h]
          exact ⟨id, fun hok => by simp at hok, rfl, rfl⟩
        · exact stopLoop_effect h

theorem startSpawn_started {process : GwProcess} {program : Bytes} {answers : StartAnswers}
    {stdoutPipe stderrPipe : Int × Int} {calls : List SystemCall} :
    (startSpawn process program answers stdoutPipe stderrPipe calls).result = .ok () →
      (startSpawn process program answers stdoutPipe stderrPipe calls).process.Started := by
  unfold startSpawn
  cases answers.attributesInit with
  | some errno =>
    intro h
    cases h
  | none =>
    cases answers.setAttributes with
    | some errno =>
      intro h
      cases h
    | none =>
      cases answers.spawn with
      | error errno =>
        intro h
        cases h
      | ok child => exact fun _ => rfl

theorem startStderr_started {process : GwProcess} {program : Bytes} {answers : StartAnswers}
    {stdoutPipe : Int × Int} {calls : List SystemCall} :
    (startStderr process program answers stdoutPipe calls).result = .ok () →
      (startStderr process program answers stdoutPipe calls).process.Started := by
  unfold startStderr
  cases answers.stderrPipe with
  | error errno =>
    intro h
    cases h
  | ok stderrPipe =>
    dsimp only
    cases configurePipe answers.stderrCloexec answers.stderrNonblock with
    | error error =>
      intro h
      cases h
    | ok configured =>
      cases answers.actionsInit with
      | some errno =>
        intro h
        cases h
      | none =>
        dsimp only
        cases answers.addFileActions with
        | some errno =>
          intro h
          cases h
        | none => exact startSpawn_started

/-- A successful start leaves a started handle. -/
theorem gwProcessStart_started {process : GwProcess} {arguments : List Bytes}
    {answers : StartAnswers} :
    (gwProcessStart process arguments answers).result = .ok () →
      (gwProcessStart process arguments answers).process.Started := by
  unfold gwProcessStart
  cases arguments with
  | nil =>
    intro h
    cases h
  | cons program rest =>
    dsimp only
    split
    · intro h
      cases h
    · cases answers.stdoutPipe with
      | error errno =>
        intro h
        cases h
      | ok stdoutPipe =>
        dsimp only
        cases configurePipe answers.stdoutCloexec answers.stdoutNonblock with
        | error error =>
          intro h
          cases h
        | ok configured => exact startStderr_started

end LearnApue.Gateway
