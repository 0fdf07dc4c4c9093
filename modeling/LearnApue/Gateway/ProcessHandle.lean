import LearnApue.Gateway.ProcessManager

set_option autoImplicit false

/-!
# Gateway: safety of the worker process handle

What the kernel keeps for the gateway is a table of the children that were not
reaped and of the descriptors that are open.  Over every sequence of calls on a
handle, the handle owns what the table holds (`Owns`), and each system call it
makes meets something the table still has (`gwProcess_safe`).
-/

namespace LearnApue.Gateway

open LearnApue.Foundation

/-! ## Rules for the calls that signal and wait -/

/-- A relation between a handle, the handle later and the calls between them that
holds of each signal, wait and reap of a started worker, and of sequences. -/
structure HandleRule (R : GwProcess → GwProcess → List SystemCall → Prop) : Prop where
  refl : ∀ process, R process process []
  append : ∀ {process middle next first rest},
    R process middle first → R middle next rest → R process next (first ++ rest)
  kill : ∀ {process : GwProcess}, 0 < process.pid → process.reaped = false → ∀ signal,
    R process process [.killGroup process.pid signal]
  wait : ∀ {process : GwProcess}, 0 < process.pid → process.reaped = false →
    R process process [.wait process.pid]
  reap : ∀ {process : GwProcess}, 0 < process.pid → process.reaped = false → ∀ status,
    R process (process.afterReap status) [.wait process.pid, .reap process.pid status]

section Rule

variable {R : GwProcess → GwProcess → List SystemCall → Prop} {process : GwProcess}

/-- A poll waits for the child only while it is not reaped. -/
theorem HandleRule.pollExit (hR : HandleRule R) (process : GwProcess) (answer : WaitAnswer) :
    R process (gwProcessPollExit process answer).process
      (gwProcessPollExit process answer).calls := by
  unfold gwProcessPollExit
  split
  · exact hR.refl process
  · rename_i hreaped
    have hreaped : process.reaped = false := by simpa using hreaped
    split
    · exact hR.refl process
    · rename_i hpid
      have hpid : 0 < process.pid := not_le.mp hpid
      cases answer with
      | none => exact hR.wait hpid hreaped
      | status status => exact hR.reap hpid hreaped status
      | failed errno =>
        dsimp only
        split
        · exact hR.wait hpid hreaped
        · exact hR.wait hpid hreaped

/-- A poll that reports no exit leaves the handle as it was. -/
theorem pollExit_false {answer : WaitAnswer}
    (h : (gwProcessPollExit process answer).result = .ok false) :
    (gwProcessPollExit process answer).process = process := by
  unfold gwProcessPollExit at h ⊢
  split
  · rfl
  · rename_i hreaped
    rw [if_neg hreaped] at h
    split
    · rfl
    · rename_i hpid
      rw [if_neg hpid] at h
      cases answer with
      | none => rfl
      | status status => cases h
      | failed errno =>
        dsimp only
        split
        · rfl
        · rfl

theorem HandleRule.waitAfterKill (hR : HandleRule R) (hpid : 0 < process.pid)
    (hreaped : process.reaped = false) {waits : List WaitAnswer} {reply : ProcessReply Unit}
    (h : Gateway.waitAfterKill process waits = some reply) :
    R process reply.process reply.calls := by
  induction waits generalizing reply with
  | nil => simp [Gateway.waitAfterKill] at h
  | cons answer rest ih =>
    cases answer with
    | none =>
      rw [Gateway.waitAfterKill, Option.some.injEq] at h
      rw [← h]
      exact hR.wait hpid hreaped
    | status status =>
      rw [Gateway.waitAfterKill, Option.some.injEq] at h
      rw [← h]
      exact hR.reap hpid hreaped status
    | failed errno =>
      rw [Gateway.waitAfterKill] at h
      split at h
      · obtain ⟨waited, hwaited, heq⟩ := Option.map_eq_some_iff.mp h
        rw [← heq]
        have hboth := hR.append (hR.wait hpid hreaped) (ih hwaited)
        rwa [List.singleton_append] at hboth
      · rw [Option.some.injEq] at h
        rw [← h]
        exact hR.wait hpid hreaped

/-- A turn of the stop's loop: its poll, and the rest when nothing exited. -/
theorem HandleRule.afterPoll (hR : HandleRule R) {origin : GwProcess} {answer : WaitAnswer}
    {before : List SystemCall}
    {rest : GwProcess → List SystemCall → Option (ProcessReply Unit)} {reply : ProcessReply Unit}
    (hbefore : R origin process before)
    (hrest : ∀ calls, R origin process calls → rest process calls = some reply →
      R origin reply.process reply.calls)
    (h : Gateway.afterPoll (gwProcessPollExit process answer) before rest = some reply) :
    R origin reply.process reply.calls := by
  have hpolled := hR.append hbefore (hR.pollExit process answer)
  unfold Gateway.afterPoll at h
  split at h
  · rw [Option.some.injEq] at h
    rw [← h]
    exact hpolled
  · rw [Option.some.injEq] at h
    rw [← h]
    exact hpolled
  · rename_i hfalse
    rw [pollExit_false hfalse] at h hpolled
    exact hrest _ hpolled h

/-- The escalation sends `SIGKILL` and reaps, each of them to a child that is still there. -/
theorem HandleRule.stopEscalate (hR : HandleRule R) (hpid : 0 < process.pid)
    (hreaped : process.reaped = false) {origin : GwProcess} {answers : StopAnswers}
    {before : List SystemCall} {reply : ProcessReply Unit} (hbefore : R origin process before)
    (h : Gateway.stopEscalate answers process before = some reply) :
    R origin reply.process reply.calls := by
  refine hR.afterPoll hbefore ?_ h
  intro calls hcalls hrest
  have hkilled := hR.append hcalls (hR.kill hpid hreaped .sigkill)
  split at hrest
  · rw [Option.some.injEq] at hrest
    rw [← hrest]
    exact hkilled
  · obtain ⟨waited, hwaited, heq⟩ := Option.map_eq_some_iff.mp hrest
    rw [← heq]
    exact hR.append hkilled (hR.waitAfterKill hpid hreaped hwaited)

/-- The grace period polls until the child is gone or the time is up; the induction is on
the polls. -/
theorem HandleRule.stopLoop (hR : HandleRule R) (hpid : 0 < process.pid)
    (hreaped : process.reaped = false) {origin : GwProcess} {answers : StopAnswers}
    {deadline : Int × Int} {rounds : List (ClockAnswer × WaitAnswer)} {before : List SystemCall}
    {reply : ProcessReply Unit} (hbefore : R origin process before)
    (h : Gateway.stopLoop answers deadline rounds process before = some reply) :
    R origin reply.process reply.calls := by
  induction rounds generalizing before with
  | nil => simp [Gateway.stopLoop] at h
  | cons turn rest ih =>
    obtain ⟨clock, wait⟩ := turn
    rw [Gateway.stopLoop] at h
    split at h
    · exact hR.stopEscalate hpid hreaped hbefore h
    · exact hR.afterPoll hbefore (fun calls hcalls hrest => ih hcalls hrest) h

/-- What holds of each signal, wait and reap holds of a stop. -/
theorem HandleRule.stop (hR : HandleRule R) {timeoutMs : Int} {answers : StopAnswers}
    {reply : ProcessReply Unit} (h : gwProcessStop process timeoutMs answers = some reply) :
    R process reply.process reply.calls := by
  unfold gwProcessStop at h
  split at h
  · rw [Option.some.injEq] at h
    rw [← h]
    exact hR.refl process
  · split at h
    · rw [Option.some.injEq] at h
      rw [← h]
      exact hR.refl process
    · rename_i hreaped
      have hreaped : process.reaped = false := by simpa using hreaped
      split at h
      · rw [Option.some.injEq] at h
        rw [← h]
        exact hR.refl process
      · rename_i hpid
        have hpid : 0 < process.pid := not_le.mp hpid
        have hkilled := hR.kill hpid hreaped .sigterm
        split at h
        · rw [Option.some.injEq] at h
          rw [← h]
          exact hkilled
        · exact hR.stopLoop hpid hreaped hkilled h

end Rule

/-! ## The kernel's table -/

/-- The children that were not reaped and the descriptors that are open. -/
structure KernelTable where
  children : List Int
  descriptors : List Int
  deriving DecidableEq

/-- The table of a process that spawned nothing and opened nothing. -/
def KernelTable.empty : KernelTable := ⟨[], []⟩

/-- What a system call does to the table. -/
def KernelTable.after (table : KernelTable) : SystemCall → KernelTable
  | .pipe readEnd writeEnd =>
      { table with descriptors := table.descriptors ++ [readEnd, writeEnd] }
  | .close descriptor => { table with descriptors := table.descriptors.erase descriptor }
  | .spawn pid => { table with children := table.children ++ [pid] }
  | .reap pid _ => { table with children := table.children.erase pid }
  | _ => table

/-- The table after a sequence of system calls. -/
def KernelTable.afterAll (table : KernelTable) (calls : List SystemCall) : KernelTable :=
  calls.foldl KernelTable.after table

/-- What the kernel promises: a new pipe has two descriptors that are not open, a
new child has a positive pid that no child has that was not reaped. -/
def Fresh (table : KernelTable) : SystemCall → Prop
  | .pipe readEnd writeEnd =>
      0 ≤ readEnd ∧ 0 ≤ writeEnd ∧ readEnd ≠ writeEnd ∧ readEnd ∉ table.descriptors ∧
        writeEnd ∉ table.descriptors
  | .spawn pid => 0 < pid ∧ pid ∉ table.children
  | _ => True

/-- What the gateway may do: close what is open, and signal, wait for and reap a
child that was not reaped. -/
def Allowed (table : KernelTable) : SystemCall → Prop
  | .close descriptor => descriptor ∈ table.descriptors
  | .killGroup pid _ => pid ∈ table.children
  | .wait pid => pid ∈ table.children
  | .reap pid _ => pid ∈ table.children
  | _ => True

/-- Every call of a sequence meets the table as the calls before it left it. -/
def Along (P : KernelTable → SystemCall → Prop) : KernelTable → List SystemCall → Prop
  | _, [] => True
  | table, call :: rest => P table call ∧ Along P (table.after call) rest

instance (table : KernelTable) : (call : SystemCall) → Decidable (Fresh table call)
  | .pipe _ _ => inferInstanceAs (Decidable (_ ∧ _))
  | .spawn _ => inferInstanceAs (Decidable (_ ∧ _))
  | .close _ | .initActions | .destroyActions | .initAttributes | .destroyAttributes
  | .killGroup _ _ | .wait _ | .reap _ _ => inferInstanceAs (Decidable True)

instance decidableAlong (P : KernelTable → SystemCall → Prop)
    [∀ table call, Decidable (P table call)] :
    (table : KernelTable) → (calls : List SystemCall) → Decidable (Along P table calls)
  | _, [] => inferInstanceAs (Decidable True)
  | table, call :: rest =>
      have := decidableAlong P (table.after call) rest
      inferInstanceAs (Decidable (_ ∧ _))

variable {P : KernelTable → SystemCall → Prop}

@[simp] theorem afterAll_nil (table : KernelTable) : table.afterAll [] = table := rfl

@[simp] theorem afterAll_cons (table : KernelTable) (call : SystemCall) (rest : List SystemCall) :
    table.afterAll (call :: rest) = (table.after call).afterAll rest := rfl

@[simp] theorem afterAll_append (table : KernelTable) (first rest : List SystemCall) :
    table.afterAll (first ++ rest) = (table.afterAll first).afterAll rest :=
  List.foldl_append

@[simp] theorem along_nil (table : KernelTable) : Along P table [] := trivial

@[simp] theorem along_cons {table : KernelTable} {call : SystemCall} {rest : List SystemCall} :
    Along P table (call :: rest) ↔ P table call ∧ Along P (table.after call) rest := Iff.rfl

@[simp] theorem along_append {table : KernelTable} {first rest : List SystemCall} :
    Along P table (first ++ rest) ↔ Along P table first ∧ Along P (table.afterAll first) rest := by
  induction first generalizing table with
  | nil => simp
  | cons call first ih => simp [ih, and_assoc]

/-! ## Closing descriptors -/

/-- The descriptors that a field of a handle or of a pipe holds. -/
def owned (descriptor : Int) : List Int := if 0 ≤ descriptor then [descriptor] else []

/-- Closing the only occurrence of an owned descriptor. -/
theorem closeFd_allowed {table : KernelTable} {descriptor : Int} {front back : List Int}
    (h : table.descriptors = front ++ owned descriptor ++ back) (hnew : descriptor ∉ front) :
    Along Allowed table (closeFd descriptor) ∧
      table.afterAll (closeFd descriptor) = { table with descriptors := front ++ back } := by
  unfold owned at h
  unfold closeFd
  split
  · rename_i hopen
    rw [if_pos hopen] at h
    refine ⟨⟨?_, trivial⟩, ?_⟩
    · show descriptor ∈ table.descriptors
      rw [h]
      simp
    · have herase : table.descriptors.erase descriptor = front ++ back := by
        rw [h, List.append_assoc, List.erase_append_right _ hnew, List.singleton_append,
          List.erase_cons_head]
      rw [← herase]
      rfl
  · rename_i hclosed
    rw [if_neg hclosed, List.append_nil] at h
    exact ⟨trivial, by rw [← h]; rfl⟩

/-- Closing the last descriptors of the table, one after the other. -/
theorem closeAll_allowed {front descriptors : List Int}
    (hopen : ∀ descriptor ∈ descriptors, 0 ≤ descriptor ∧ descriptor ∉ front) {table : KernelTable}
    (h : table.descriptors = front ++ descriptors) :
    Along Allowed table (descriptors.flatMap closeFd) ∧
      table.afterAll (descriptors.flatMap closeFd) = { table with descriptors := front } := by
  induction descriptors generalizing table with
  | nil =>
    rw [List.append_nil] at h
    exact ⟨trivial, congrArg (KernelTable.mk table.children) h⟩
  | cons descriptor rest ih =>
    obtain ⟨hnonneg, hnew⟩ := hopen descriptor List.mem_cons_self
    have howned : owned descriptor = [descriptor] := if_pos hnonneg
    have htable : table.descriptors = front ++ owned descriptor ++ rest := by
      rw [h, howned, List.append_assoc]
      rfl
    obtain ⟨hfirst, hafter⟩ := closeFd_allowed htable hnew
    obtain ⟨hrest, hend⟩ := @ih
      (fun other hother => hopen other (List.mem_cons_of_mem _ hother))
      { table with descriptors := front ++ rest } rfl
    rw [List.flatMap_cons, along_append, afterAll_append, hafter]
    exact ⟨⟨hfirst, hrest⟩, hend⟩

/-- The `fail` label closes what was opened. -/
theorem cleanup_allowed {front : List Int} {cleanup : StartCleanup}
    (hopen : ∀ descriptor ∈ cleanup.descriptors, 0 ≤ descriptor ∧ descriptor ∉ front)
    {table : KernelTable} (h : table.descriptors = front ++ cleanup.descriptors) :
    Along Allowed table cleanup.run ∧
      table.afterAll cleanup.run = { table with descriptors := front } := by
  obtain ⟨hclosed, hend⟩ := closeAll_allowed hopen h
  obtain ⟨attributes, actions, descriptors⟩ := cleanup
  unfold StartCleanup.run
  cases attributes with
  | false =>
    cases actions with
    | false => exact ⟨hclosed, hend⟩
    | true => exact ⟨⟨trivial, hclosed⟩, hend⟩
  | true =>
    cases actions with
    | false => exact ⟨⟨trivial, hclosed⟩, hend⟩
    | true => exact ⟨⟨trivial, trivial, hclosed⟩, hend⟩

/-! ## What a handle owns -/

/-- The handle owns what the table holds. -/
structure Owns (process : GwProcess) (table : KernelTable) : Prop where
  children : table.children = if process.running then [process.pid] else []
  running : process.running = true → 0 < process.pid ∧ process.reaped = false
  ended : process.running = false → process.reaped = true ∨ process.pid ≤ 0
  descriptors : table.descriptors = owned process.stdoutFd ++ owned process.stderrFd
  distinct : process.stderrFd ∉ owned process.stdoutFd
  unstarted : process.pid ≤ 0 → process.stdoutFd < 0 ∧ process.stderrFd < 0

theorem owned_of_neg {descriptor : Int} (h : descriptor < 0) : owned descriptor = [] :=
  if_neg (not_le.mpr h)

theorem owns_init : Owns gwProcessInit .empty :=
  ⟨rfl, (fun h => nomatch h), fun _ => Or.inr (by decide), rfl, by decide, fun _ => by decide⟩

/-- A child that the handle signals or waits for was not reaped. -/
theorem Owns.mem_children {process : GwProcess} {table : KernelTable} (h : Owns process table)
    (hpid : 0 < process.pid) (hreaped : process.reaped = false) :
    process.running = true ∧ table.children = [process.pid] := by
  have hrunning : process.running = true := by
    cases hr : process.running with
    | true => rfl
    | false =>
      rcases h.ended hr with hended | hunstarted
      · rw [hreaped] at hended
        cases hended
      · omega
  refine ⟨hrunning, ?_⟩
  rw [h.children, if_pos hrunning]

/-- What a call on the handle does: each system call it makes is allowed, and the
handle owns what is left. -/
def Keeps (process : GwProcess) (table : KernelTable) (next : GwProcess)
    (calls : List SystemCall) : Prop :=
  Owns process table → Along Allowed table calls ∧ Owns next (table.afterAll calls)

theorem keeps_nil (process : GwProcess) (table : KernelTable) : Keeps process table process [] :=
  fun h => ⟨trivial, h⟩

/-- The calls of two steps in turn. -/
theorem keeps_append {process middle next : GwProcess} {table : KernelTable}
    {first rest : List SystemCall} (hfirst : Keeps process table middle first)
    (hrest : Keeps middle (table.afterAll first) next rest) :
    Keeps process table next (first ++ rest) := by
  intro h
  obtain ⟨hallowed, howns⟩ := hfirst h
  obtain ⟨hallowed', howns'⟩ := hrest howns
  rw [along_append, afterAll_append]
  exact ⟨⟨hallowed, hallowed'⟩, howns'⟩

/-! ## Signals and waits -/

section

variable {process : GwProcess} {table : KernelTable}

/-- A signal goes to a child that was started and not reaped. -/
theorem keeps_kill (hpid : 0 < process.pid) (hreaped : process.reaped = false)
    (signal : StopSignal) : Keeps process table process [.killGroup process.pid signal] := by
  intro h
  have hmem : process.pid ∈ table.children := by simp [(h.mem_children hpid hreaped).2]
  exact ⟨⟨hmem, trivial⟩, h⟩

theorem keeps_wait (hpid : 0 < process.pid) (hreaped : process.reaped = false) :
    Keeps process table process [.wait process.pid] := by
  intro h
  have hmem : process.pid ∈ table.children := by simp [(h.mem_children hpid hreaped).2]
  exact ⟨⟨hmem, trivial⟩, h⟩

/-- The `waitpid` that reports the worker. -/
theorem keeps_reap (hpid : 0 < process.pid) (hreaped : process.reaped = false) (status : Int) :
    Keeps process table (process.afterReap status)
      [.wait process.pid, .reap process.pid status] := by
  intro h
  have hchildren := (h.mem_children hpid hreaped).2
  have hmem : process.pid ∈ table.children := by simp [hchildren]
  refine ⟨⟨hmem, hmem, trivial⟩, ?_, (fun hr => nomatch hr),
    fun _ => Or.inl rfl, h.descriptors, h.distinct, h.unstarted⟩
  show table.children.erase process.pid = []
  rw [hchildren, List.erase_cons_head]

/-- The rule for the calls that signal and wait. -/
theorem keeps_rule : HandleRule fun process next calls =>
    ∀ table, Keeps process table next calls where
  refl := keeps_nil
  append := fun hfirst hrest table => keeps_append (hfirst table) (hrest (table.afterAll _))
  kill := fun hpid hreaped signal _ => keeps_kill hpid hreaped signal
  wait := fun hpid hreaped _ => keeps_wait hpid hreaped
  reap := fun hpid hreaped status _ => keeps_reap hpid hreaped status

/-! ## Reading and closing -/

theorem read_keeps (stream : GwProcessStream) (answer : ReadAnswer) :
    Keeps process table (gwProcessRead process stream answer).process
      (gwProcessRead process stream answer).calls := by
  unfold gwProcessRead
  split
  · exact keeps_nil process table
  · cases answer with
    | error errno =>
      dsimp only
      split
      · exact keeps_nil process table
      · exact keeps_nil process table
    | ok data =>
      cases data with
      | cons b rest => exact keeps_nil process table
      | nil =>
        intro h
        have hclosed : owned (-1) = [] := rfl
        cases stream with
        | stdout =>
          have htable : table.descriptors =
              [] ++ owned process.stdoutFd ++ owned process.stderrFd := h.descriptors
          obtain ⟨hallowed, hafter⟩ := closeFd_allowed htable List.not_mem_nil
          refine ⟨hallowed, ?_⟩
          show Owns _ (table.afterAll (closeFd process.stdoutFd))
          rw [hafter]
          exact ⟨h.children, h.running, h.ended, rfl, List.not_mem_nil,
            fun hpid => ⟨(by decide : (-1 : Int) < 0), (h.unstarted hpid).2⟩⟩
        | stderr =>
          have htable : table.descriptors =
              owned process.stdoutFd ++ owned process.stderrFd ++ [] := by
            rw [h.descriptors, List.append_nil]
          obtain ⟨hallowed, hafter⟩ := closeFd_allowed htable h.distinct
          refine ⟨hallowed, ?_⟩
          show Owns _ (table.afterAll (closeFd process.stderrFd))
          rw [hafter]
          refine ⟨h.children, h.running, h.ended, rfl, ?_,
            fun hpid => ⟨(h.unstarted hpid).1, (by decide : (-1 : Int) < 0)⟩⟩
          show (-1 : Int) ∉ owned process.stdoutFd
          unfold owned
          split
          · rename_i hopen
            rw [List.mem_singleton]
            omega
          · exact List.not_mem_nil

/-- Closing a handle that is not running leaves no descriptor open. -/
theorem close_releases (h : Owns process table) (hrunning : process.running = false) :
    Along Allowed table (gwProcessClose process).calls ∧
      table.afterAll (gwProcessClose process).calls = ⟨[], []⟩ := by
  have hcalls : (gwProcessClose process).calls =
      closeFd process.stdoutFd ++ closeFd process.stderrFd := by
    unfold gwProcessClose
    rw [if_neg (by simp [hrunning])]
  have htable : table.descriptors = [] ++ owned process.stdoutFd ++ owned process.stderrFd :=
    h.descriptors
  have hchildren : table.children = [] := by
    rw [h.children, if_neg (by simp [hrunning])]
  obtain ⟨hfirst, hafter⟩ := closeFd_allowed htable List.not_mem_nil
  have htable' : owned process.stderrFd = [] ++ owned process.stderrFd ++ [] := by simp
  obtain ⟨hsecond, hend⟩ := @closeFd_allowed
    { table with descriptors := [] ++ owned process.stderrFd } process.stderrFd [] []
    htable' List.not_mem_nil
  rw [hcalls, along_append, afterAll_append, hafter]
  exact ⟨⟨hfirst, hsecond⟩, hend.trans (congrArg (fun pids => KernelTable.mk pids []) hchildren)⟩

/-- `gw_process_close` closes each pipe end once and forgets it. -/
theorem close_keeps :
    Keeps process table (gwProcessClose process).process (gwProcessClose process).calls := by
  intro h
  cases hrunning : process.running with
  | true =>
    have hrefused : gwProcessClose process = ⟨process, .error (gwErrorSet .errValidation
        (ascii "cannot close a running worker process")), []⟩ := by
      unfold gwProcessClose
      rw [if_pos hrunning]
    rw [hrefused]
    exact ⟨trivial, h⟩
  | false =>
    obtain ⟨hallowed, hend⟩ := close_releases h hrunning
    refine ⟨hallowed, ?_⟩
    rw [hend]
    have hclosed : (gwProcessClose process).process =
        { process with pid := -1, stdoutFd := -1, stderrFd := -1 } := by
      unfold gwProcessClose
      rw [if_neg (by simp [hrunning])]
    rw [hclosed]
    have hneg : (-1 : Int) < 0 := by decide
    refine ⟨?_, fun hr => ?_, fun _ => Or.inr hneg.le, rfl, List.not_mem_nil,
      fun _ => ⟨hneg, hneg⟩⟩
    · simp [hrunning]
    · simp [hrunning] at hr

/-! ## Starting -/

/-- A handle that may be started owns nothing. -/
theorem Owns.unstarted_table (h : Owns process table) (hrunning : process.running = false)
    (hpid : process.pid ≤ 0) : table = .empty := by
  obtain ⟨hstdout, hstderr⟩ := h.unstarted hpid
  have hchildren : table.children = [] := by rw [h.children, if_neg (by simp [hrunning])]
  have hdescriptors : table.descriptors = [] := by
    rw [h.descriptors, owned_of_neg hstdout, owned_of_neg hstderr]
    rfl
  obtain ⟨children, descriptors⟩ := table
  exact congrArg₂ KernelTable.mk hchildren hdescriptors

/-- The start of a handle that owns nothing: its calls so far opened `descriptors`
and spawned nothing. -/
structure Opened (calls : List SystemCall) (descriptors : List Int) : Prop where
  allowed : Along Allowed .empty calls
  table : KernelTable.afterAll .empty calls = ⟨[], descriptors⟩
  nonneg : ∀ descriptor ∈ descriptors, 0 ≤ descriptor
  distinct : descriptors.Nodup

/-- What is said of the end of a start. -/
def StartKeeps (reply : ProcessReply Unit) : Prop :=
  Along Fresh .empty reply.calls →
    Along Allowed .empty reply.calls ∧ Owns reply.process (KernelTable.afterAll .empty reply.calls)

/-- A start that fails undoes what it has opened, and leaves the handle as it was. -/
theorem startFailure_keeps (h : Owns process .empty) {calls : List SystemCall}
    {cleanup : StartCleanup}
    (hopened : Along Fresh .empty calls → Opened calls cleanup.descriptors) (error : GwError) :
    StartKeeps (startFailure process error calls cleanup) := by
  intro hfresh
  unfold startFailure at hfresh
  rw [along_append] at hfresh
  have hopened := hopened hfresh.1
  have hdescriptors : (KernelTable.afterAll .empty calls).descriptors =
      [] ++ cleanup.descriptors := by
    rw [hopened.table]
    rfl
  obtain ⟨hallowed, hend⟩ := cleanup_allowed
    (fun descriptor hmem => ⟨hopened.nonneg descriptor hmem, List.not_mem_nil⟩) hdescriptors
  unfold startFailure
  rw [along_append, afterAll_append, hend]
  refine ⟨⟨hopened.allowed, hallowed⟩, ?_⟩
  rw [hopened.table]
  exact h

/-- A pipe that the kernel opens. -/
theorem opened_pipe {calls : List SystemCall} {descriptors : List Int}
    (h : Along Fresh .empty calls → Opened calls descriptors) {readEnd writeEnd : Int}
    (hfresh : Along Fresh .empty (calls ++ [.pipe readEnd writeEnd])) :
    Opened (calls ++ [.pipe readEnd writeEnd]) (descriptors ++ [readEnd, writeEnd]) := by
  rw [along_append] at hfresh
  have h := h hfresh.1
  rw [h.table] at hfresh
  obtain ⟨-, ⟨hread, hwrite, hne, hreadNew, hwriteNew⟩, -⟩ := hfresh
  refine ⟨?_, ?_, ?_, ?_⟩
  · rw [along_append]
    exact ⟨h.allowed, trivial, trivial⟩
  · rw [afterAll_append, h.table]
    rfl
  · intro descriptor hmem
    rcases List.mem_append.mp hmem with hold | hnew
    · exact h.nonneg descriptor hold
    · simp only [List.mem_cons, List.not_mem_nil, or_false] at hnew
      rcases hnew with rfl | rfl
      · exact hread
      · exact hwrite
  · refine List.nodup_append.mpr ⟨h.distinct, by simp [hne], ?_⟩
    intro old hold new hnew heq
    simp only [List.mem_cons, List.not_mem_nil, or_false] at hnew
    rcases hnew with rfl | rfl
    · exact hreadNew (heq ▸ hold)
    · exact hwriteNew (heq ▸ hold)

/-- A call that opens nothing. -/
theorem opened_other {calls : List SystemCall} {descriptors : List Int}
    (h : Along Fresh .empty calls → Opened calls descriptors) {call : SystemCall}
    (hallowed : ∀ table, Allowed table call)
    (hafter : ∀ table : KernelTable, table.after call = table)
    (hfresh : Along Fresh .empty (calls ++ [call])) : Opened (calls ++ [call]) descriptors := by
  rw [along_append] at hfresh
  have h := h hfresh.1
  refine ⟨?_, ?_, h.nonneg, h.distinct⟩
  · rw [along_append]
    exact ⟨h.allowed, hallowed _, trivial⟩
  · rw [afterAll_append, h.table, afterAll_cons, hafter]
    rfl

/-- The spawn comes behind both pairs of pipes. -/
theorem startSpawn_keeps (h : Owns process .empty) {program : Bytes} {answers : StartAnswers}
    {stdoutPipe stderrPipe : Int × Int} {calls : List SystemCall}
    (hopened : Along Fresh .empty calls →
      Opened calls [stdoutPipe.1, stdoutPipe.2, stderrPipe.1, stderrPipe.2]) :
    StartKeeps (startSpawn process program answers stdoutPipe stderrPipe calls) := by
  unfold startSpawn
  cases answers.attributesInit with
  | some errno => exact startFailure_keeps h hopened _
  | none =>
    have hopened := @opened_other calls _ hopened .initAttributes (fun _ => trivial) (fun _ => rfl)
    dsimp only
    generalize calls ++ [SystemCall.initAttributes] = calls at hopened ⊢
    cases answers.setAttributes with
    | some errno => exact startFailure_keeps h hopened _
    | none =>
      cases answers.spawn with
      | error errno => exact startFailure_keeps h hopened _
      | ok child =>
        intro hfresh
        dsimp only at hfresh ⊢
        obtain ⟨readOut, writeOut⟩ := stdoutPipe
        obtain ⟨readErr, writeErr⟩ := stderrPipe
        have hopened := hopened (by
          rw [List.append_assoc, List.append_assoc, along_append] at hfresh
          exact hfresh.1)
        have hdistinct := hopened.distinct
        simp only [List.nodup_cons, List.mem_cons, List.not_mem_nil, or_false, not_or] at hdistinct
        have hnonneg := hopened.nonneg
        simp only [List.forall_mem_cons] at hnonneg
        obtain ⟨hreadOut, hwriteOut, hreadErr, hwriteErr, -⟩ := hnonneg
        -- the child, then the write ends that only the child keeps
        have hspawn : 0 < child := by
          rw [List.append_assoc, List.append_assoc, along_append] at hfresh
          exact hfresh.2.1.1
        have htable : (KernelTable.mk [child] [readOut, writeOut, readErr, writeErr]).descriptors =
            [readOut] ++ owned writeOut ++ [readErr, writeErr] := by
          simp [owned, hwriteOut]
        have htable' : (KernelTable.mk [child] ([readOut] ++ [readErr, writeErr])).descriptors =
            [readOut, readErr] ++ owned writeErr ++ [] := by
          simp [owned, hwriteErr]
        obtain ⟨hout, hafterOut⟩ := closeFd_allowed htable
          (by rw [List.mem_singleton]; exact Ne.symm hdistinct.1.1)
        obtain ⟨herr, hafterErr⟩ := closeFd_allowed htable' (by
          simp only [List.mem_cons, List.not_mem_nil, or_false, not_or]
          exact ⟨Ne.symm hdistinct.1.2.2, Ne.symm hdistinct.2.2.1⟩)
        have hspawned : KernelTable.afterAll ⟨[], [readOut, writeOut, readErr, writeErr]⟩
            [.spawn child, .destroyAttributes, .destroyActions] =
              ⟨[child], [readOut, writeOut, readErr, writeErr]⟩ := rfl
        simp only [along_append, afterAll_append, hopened.table, hspawned, hafterOut, hafterErr]
        refine ⟨⟨⟨⟨hopened.allowed, trivial, trivial, trivial, trivial⟩, hout⟩, herr⟩, ?_⟩
        refine ⟨rfl, fun _ => ⟨hspawn, rfl⟩, (fun hr => nomatch hr), ?_, ?_, fun hpid => ?_⟩
        · simp [owned, hreadOut, hreadErr]
        · simp only [owned, if_pos hreadOut, List.mem_singleton]
          exact Ne.symm hdistinct.1.2.1
        · exact absurd hspawn (not_lt.mpr hpid)

theorem startStderr_keeps (h : Owns process .empty) {program : Bytes} {answers : StartAnswers}
    {stdoutPipe : Int × Int} {calls : List SystemCall}
    (hopened : Along Fresh .empty calls → Opened calls [stdoutPipe.1, stdoutPipe.2]) :
    StartKeeps (startStderr process program answers stdoutPipe calls) := by
  unfold startStderr
  cases answers.stderrPipe with
  | error errno => exact startFailure_keeps h hopened _
  | ok stderrPipe =>
    have hopened := @opened_pipe calls _ hopened stderrPipe.1 stderrPipe.2
    dsimp only
    generalize calls ++ [SystemCall.pipe stderrPipe.1 stderrPipe.2] = calls at hopened ⊢
    cases configurePipe answers.stderrCloexec answers.stderrNonblock with
    | error error => exact startFailure_keeps h hopened _
    | ok configured =>
      cases answers.actionsInit with
      | some errno => exact startFailure_keeps h hopened _
      | none =>
        have hopened := @opened_other calls _ hopened .initActions (fun _ => trivial) (fun _ => rfl)
        dsimp only
        generalize calls ++ [SystemCall.initActions] = calls at hopened ⊢
        cases answers.addFileActions with
        | some errno => exact startFailure_keeps h hopened _
        | none => exact startSpawn_keeps h hopened

/-- A start owns the two read ends and the child, or nothing. -/
theorem start_keeps (h : Owns process table) (arguments : List Bytes) (answers : StartAnswers)
    (hfresh : Along Fresh table (gwProcessStart process arguments answers).calls) :
    Along Allowed table (gwProcessStart process arguments answers).calls ∧
      Owns (gwProcessStart process arguments answers).process
        (table.afterAll (gwProcessStart process arguments answers).calls) := by
  unfold gwProcessStart at hfresh ⊢
  cases arguments with
  | nil => exact ⟨trivial, h⟩
  | cons program rest =>
    dsimp only at hfresh ⊢
    split at hfresh
    · rename_i hactive
      rw [if_pos hactive]
      exact ⟨trivial, h⟩
    · rename_i hidle
      rw [if_neg hidle]
      have hboth : process.running = false ∧ process.pid ≤ 0 := by simpa using hidle
      have htable : table = .empty := h.unstarted_table hboth.1 hboth.2
      subst htable
      cases hpipe : answers.stdoutPipe with
      | error errno => exact ⟨trivial, h⟩
      | ok stdoutPipe =>
        rw [hpipe] at hfresh
        dsimp only at hfresh ⊢
        have hopened := @opened_pipe [] [] (fun _ => ⟨trivial, rfl, by simp, List.nodup_nil⟩)
          stdoutPipe.1 stdoutPipe.2
        cases hconfigure : configurePipe answers.stdoutCloexec answers.stdoutNonblock with
        | error error =>
          rw [hconfigure] at hfresh
          exact startFailure_keeps h hopened error hfresh
        | ok configured =>
          rw [hconfigure] at hfresh
          exact startStderr_keeps h hopened hfresh

end

/-! ## The flag for reaping and the reaps -/

/-- The calls on a handle reap its worker when they set `reaped`, and else reap
nobody. -/
structure ReapsSeen (process next : GwProcess) (calls : List SystemCall) : Prop where
  pid : next.pid = process.pid
  unreaped : next.reaped = false →
    process.reaped = false ∧ ∀ pid status, .reap pid status ∉ calls
  reaped : next.reaped = true →
    process.reaped = true ∨ ∃ status, .reap process.pid status ∈ calls

section

variable {process : GwProcess}

/-- Calls that reap nobody and keep the flag. -/
theorem ReapsSeen.of_plain {next : GwProcess} {calls : List SystemCall}
    (hpid : next.pid = process.pid) (hreaped : next.reaped = process.reaped)
    (hcalls : ∀ pid status, .reap pid status ∉ calls) : ReapsSeen process next calls :=
  ⟨hpid, fun h => ⟨hreaped ▸ h, hcalls⟩, fun h => Or.inl (hreaped ▸ h)⟩

theorem ReapsSeen.refl (process : GwProcess) : ReapsSeen process process [] :=
  .of_plain rfl rfl (by simp)

theorem ReapsSeen.reap (process : GwProcess) (status : Int) :
    ReapsSeen process (process.afterReap status)
      [.wait process.pid, .reap process.pid status] :=
  ⟨rfl, (fun h => nomatch h), fun _ => Or.inr ⟨status, by simp⟩⟩

theorem ReapsSeen.append {middle next : GwProcess} {first rest : List SystemCall}
    (hfirst : ReapsSeen process middle first) (hrest : ReapsSeen middle next rest) :
    ReapsSeen process next (first ++ rest) := by
  refine ⟨hrest.pid.trans hfirst.pid, ?_, ?_⟩
  · intro h
    obtain ⟨hmiddle, hlater⟩ := hrest.unreaped h
    obtain ⟨hprocess, hearlier⟩ := hfirst.unreaped hmiddle
    refine ⟨hprocess, fun pid status hmem => ?_⟩
    rcases List.mem_append.mp hmem with hmem | hmem
    · exact hearlier pid status hmem
    · exact hlater pid status hmem
  · intro h
    rcases hrest.reaped h with hmiddle | ⟨status, hstatus⟩
    · rcases hfirst.reaped hmiddle with hprocess | ⟨status, hstatus⟩
      · exact Or.inl hprocess
      · exact Or.inr ⟨status, List.mem_append_left _ hstatus⟩
    · rw [hfirst.pid] at hstatus
      exact Or.inr ⟨status, List.mem_append_right _ hstatus⟩

theorem reapsSeen_wait (process : GwProcess) :
    ReapsSeen process process [.wait process.pid] :=
  .of_plain rfl rfl (by simp)

theorem reapsSeen_kill (process : GwProcess) (signal : StopSignal) :
    ReapsSeen process process [.killGroup process.pid signal] :=
  .of_plain rfl rfl (by simp)

/-- The rule for the calls that signal and wait. -/
theorem reapsSeen_rule : HandleRule ReapsSeen where
  refl := .refl
  append := .append
  kill := fun _ _ signal => reapsSeen_kill _ signal
  wait := fun _ _ => reapsSeen_wait _
  reap := fun _ _ status => .reap _ status

theorem read_reapsSeen (process : GwProcess) (stream : GwProcessStream) (answer : ReadAnswer) :
    ReapsSeen process (gwProcessRead process stream answer).process
      (gwProcessRead process stream answer).calls := by
  unfold gwProcessRead
  split
  · exact .refl process
  · cases answer with
    | error errno =>
      dsimp only
      split
      · exact .refl process
      · exact .refl process
    | ok data =>
      cases data with
      | cons b rest => exact .refl process
      | nil =>
        have hcalls : ∀ pid status,
            SystemCall.reap pid status ∉ closeFd (process.descriptor stream) := by
          intro pid status
          unfold closeFd
          split
          · simp
          · simp
        cases stream with
        | stdout => exact .of_plain rfl rfl hcalls
        | stderr => exact .of_plain rfl rfl hcalls

end

/-! ## Sequences of calls -/

/-- A call on a handle, with the answers of the system calls it makes. -/
inductive ProcessCall where
  | start (arguments : List Bytes) (answers : StartAnswers)
  | read (stream : GwProcessStream) (answer : ReadAnswer)
  | pollExit (answer : WaitAnswer)
  | stop (timeoutMs : Int) (answers : StopAnswers)
  | close

/-- The handle after a call that returned, and the system calls made. -/
def ProcessCall.run (process : GwProcess) : ProcessCall → Option (GwProcess × List SystemCall)
  | .start arguments answers =>
      let reply := gwProcessStart process arguments answers
      some (reply.process, reply.calls)
  | .read stream answer =>
      let reply := gwProcessRead process stream answer
      some (reply.process, reply.calls)
  | .pollExit answer =>
      let reply := gwProcessPollExit process answer
      some (reply.process, reply.calls)
  | .stop timeoutMs answers =>
      (gwProcessStop process timeoutMs answers).map fun reply => (reply.process, reply.calls)
  | .close =>
      let reply := gwProcessClose process
      some (reply.process, reply.calls)

/-- The handle after a sequence of calls, and the system calls made. -/
def handleRun : GwProcess → List ProcessCall → Option (GwProcess × List SystemCall)
  | process, [] => some (process, [])
  | process, call :: rest =>
      match call.run process with
      | none => none
      | some (next, calls) => (handleRun next rest).map fun (last, later) => (last, calls ++ later)

/-- One call: what it does is allowed, and the handle owns what is left. -/
theorem ProcessCall.run_keeps {process next : GwProcess} {table : KernelTable} {call : ProcessCall}
    {calls : List SystemCall} (howns : Owns process table)
    (h : call.run process = some (next, calls)) (hfresh : Along Fresh table calls) :
    Along Allowed table calls ∧ Owns next (table.afterAll calls) := by
  cases call with
  | start arguments answers =>
    cases h
    exact start_keeps howns arguments answers hfresh
  | read stream answer =>
    cases h
    exact read_keeps stream answer howns
  | pollExit answer =>
    cases h
    exact keeps_rule.pollExit process answer table howns
  | stop timeoutMs answers =>
    obtain ⟨reply, hreply, heq⟩ := Option.map_eq_some_iff.mp h
    cases heq
    exact keeps_rule.stop hreply table howns
  | close =>
    cases h
    exact close_keeps howns

/-- A sequence of calls, from any handle that owns what the table holds. -/
theorem handleRun_keeps {requests : List ProcessCall} {process last : GwProcess}
    {table : KernelTable} {calls : List SystemCall} (howns : Owns process table)
    (h : handleRun process requests = some (last, calls)) (hfresh : Along Fresh table calls) :
    Along Allowed table calls ∧ Owns last (table.afterAll calls) := by
  induction requests generalizing process table calls with
  | nil =>
    cases h
    exact ⟨trivial, howns⟩
  | cons call rest ih =>
    simp only [handleRun] at h
    split at h
    · cases h
    · rename_i next made hcall
      obtain ⟨⟨last', later⟩, hrest, heq⟩ := Option.map_eq_some_iff.mp h
      cases heq
      rw [along_append] at hfresh ⊢
      rw [afterAll_append]
      obtain ⟨hallowed, hnext⟩ := call.run_keeps howns hcall hfresh.1
      obtain ⟨hallowed', hlast⟩ := ih hnext hrest hfresh.2
      exact ⟨⟨hallowed, hallowed'⟩, hlast⟩

/-- A child that a stop reports as stopped was reaped. -/
theorem stop_reaped {process : GwProcess} {table : KernelTable} (howns : Owns process table)
    {timeoutMs : Int} {answers : StopAnswers} {reply : ProcessReply Unit}
    (h : gwProcessStop process timeoutMs answers = some reply) (hok : reply.result = .ok ()) :
    (table.afterAll reply.calls).children = [] := by
  have hnext := (keeps_rule.stop h table howns).2
  have hreaped : reply.process.reaped = true := (gwProcessStop_effect h).reaped hok
  rw [hnext.children]
  cases hrunning : reply.process.running with
  | false => rfl
  | true =>
    have hnot := (hnext.running hrunning).2
    rw [hreaped] at hnot
    cases hnot

/-- The handle is safe.  In every sequence of calls on a fresh handle, whatever
the kernel answers within its promises: each signal, each `waitpid` and each reap
meets a child that was not reaped before, and each close a descriptor that is
open; `running` implies a positive pid that was not reaped; a stop that reports
success leaves no child unreaped; and a close refuses a child that was not
reaped, and otherwise leaves no descriptor open. -/
theorem gwProcess_safe {requests : List ProcessCall} {process : GwProcess}
    {calls : List SystemCall} (hrun : handleRun gwProcessInit requests = some (process, calls))
    (hfresh : Along Fresh .empty calls) :
    Along Allowed .empty calls ∧
    (process.running = true → 0 < process.pid ∧ process.reaped = false ∧
      (KernelTable.afterAll .empty calls).children = [process.pid]) ∧
    (∀ timeoutMs answers reply, gwProcessStop process timeoutMs answers = some reply →
      reply.result = .ok () →
      (KernelTable.afterAll .empty (calls ++ reply.calls)).children = []) ∧
    ((KernelTable.afterAll .empty calls).children ≠ [] →
      (∃ error, (gwProcessClose process).result = .error error) ∧
        (gwProcessClose process).process = process ∧ (gwProcessClose process).calls = []) ∧
    ((KernelTable.afterAll .empty calls).children = [] →
      (gwProcessClose process).result = .ok () ∧
        (KernelTable.afterAll .empty (calls ++ (gwProcessClose process).calls)).descriptors = []) := by
  obtain ⟨hallowed, howns⟩ := handleRun_keeps owns_init hrun hfresh
  refine ⟨hallowed, ?_, ?_, ?_, ?_⟩
  · intro hrunning
    obtain ⟨hpid, hreaped⟩ := howns.running hrunning
    exact ⟨hpid, hreaped, (howns.mem_children hpid hreaped).2⟩
  · intro timeoutMs answers reply hstop hok
    rw [afterAll_append]
    exact stop_reaped howns hstop hok
  · intro hchild
    have hrunning : process.running = true := by
      cases hr : process.running with
      | true => rfl
      | false =>
        rw [howns.children, hr] at hchild
        exact absurd rfl hchild
    unfold gwProcessClose
    rw [if_pos hrunning]
    exact ⟨⟨_, rfl⟩, rfl, rfl⟩
  · intro hnone
    have hrunning : process.running = false := by
      cases hr : process.running with
      | false => rfl
      | true =>
        rw [howns.children, hr] at hnone
        cases hnone
    rw [afterAll_append, (close_releases howns hrunning).2]
    refine ⟨?_, rfl⟩
    unfold gwProcessClose
    rw [if_neg (by simp [hrunning])]

/-- The answers of a start that succeeds with the pipes 3-4 and 5-6. -/
def plainStart (pid : Int) : StartAnswers where
  stdoutPipe := .ok (3, 4)
  stdoutCloexec := none
  stdoutNonblock := none
  stderrPipe := .ok (5, 6)
  stderrCloexec := none
  stderrNonblock := none
  actionsInit := none
  addFileActions := none
  attributesInit := none
  setAttributes := none
  spawn := .ok pid

/-- A worker that exits by itself, and another with the same pid after it. -/
theorem gwProcess_safe_twice :
    Along Allowed .empty
      (((handleRun gwProcessInit
        [.start [ascii "ffmpeg"] (plainStart 7), .read .stdout (.ok []), .pollExit (.status 0),
          .close, .start [ascii "ffmpeg"] (plainStart 7)]).map Prod.snd).getD []) :=
  (@gwProcess_safe
    [.start [ascii "ffmpeg"] (plainStart 7), .read .stdout (.ok []), .pollExit (.status 0),
      .close, .start [ascii "ffmpeg"] (plainStart 7)] _ _ rfl (by decide +kernel)).1

end LearnApue.Gateway
