import LearnApue.Gateway.ProcessStart

set_option autoImplicit false

/-!
# Gateway: the descriptors of a worker (`add_file_actions` in `process_manager.c`)

The child runs the queued actions one after the other on its own descriptor table: the
two write ends are copied to the numbers 1 and 2, then all four ends are closed.  The
closes go by number, so a pipe end that has one of these two numbers itself takes the
redirection away again.
-/

namespace LearnApue.Gateway

open LearnApue.Foundation

/-! ## Queued actions -/

/-- An action of `posix_spawn_file_actions_t`. -/
inductive FileAction where
  | dup2 (source target : Int)
  | close (descriptor : Int)
  deriving DecidableEq, Repr

/-- `STDOUT_FILENO`. -/
def stdoutFileno : Int := 1

/-- `STDERR_FILENO`. -/
def stderrFileno : Int := 2

/-- Actions queued one after the other, up to the first call that fails. -/
def queueActions : List (Option Errno × FileAction) → List FileAction × Option Errno
  | [] => ([], none)
  | (some errno, _) :: _ => ([], some errno)
  | (none, action) :: rest => (action :: (queueActions rest).1, (queueActions rest).2)

/-- `add_file_actions`: the actions in the queue, and the result. -/
def addFileActions (answers : FileActionAnswers) (stdoutPipe stderrPipe : Int × Int) :
    List FileAction × Option Errno :=
  queueActions
    [(answers.dupStdout, .dup2 stdoutPipe.2 stdoutFileno),
      (answers.dupStderr, .dup2 stderrPipe.2 stderrFileno),
      (answers.closeStdoutRead, .close stdoutPipe.1),
      (answers.closeStdoutWrite, .close stdoutPipe.2),
      (answers.closeStderrRead, .close stderrPipe.1),
      (answers.closeStderrWrite, .close stderrPipe.2)]

/-- The result is the first failure. -/
theorem queueActions_result (calls : List (Option Errno × FileAction)) :
    (queueActions calls).2 = firstFailure (calls.map Prod.fst) := by
  induction calls with
  | nil => rfl
  | cons call rest ih =>
    obtain ⟨answer, action⟩ := call
    cases answer with
    | some errno => rfl
    | none => exact ih

/-- Without a failure everything is queued. -/
theorem queueActions_queued {calls : List (Option Errno × FileAction)}
    (h : (queueActions calls).2 = none) : (queueActions calls).1 = calls.map Prod.snd := by
  induction calls with
  | nil => rfl
  | cons call rest ih =>
    obtain ⟨answer, action⟩ := call
    cases answer with
    | some errno => cases h
    | none => exact congrArg (action :: ·) (ih h)

/-- The start fails exactly when the queueing does. -/
theorem addFileActions_result (answers : StartCallAnswers) (stdoutPipe stderrPipe : Int × Int) :
    (addFileActions answers.fileActions stdoutPipe stderrPipe).2 =
      answers.merged.addFileActions := queueActions_result _

/-! ## The child's descriptors -/

/-- The ends of the two pipes. -/
inductive PipeEnd where
  | stdoutRead
  | stdoutWrite
  | stderrRead
  | stderrWrite
  deriving DecidableEq, Repr

/-- A descriptor table: what each number refers to, an end of the two pipes or
something else. -/
abbrev DescriptorTable (φ : Type) : Type := Int → Option (PipeEnd ⊕ φ)

section Table

variable {φ : Type}

/-- A child starts with the four ends and with what was open before. -/
def childTable (inherited : Int → Option φ) (stdoutPipe stderrPipe : Int × Int) :
    DescriptorTable φ := fun descriptor =>
  if descriptor = stdoutPipe.1 then some (.inl .stdoutRead)
  else if descriptor = stdoutPipe.2 then some (.inl .stdoutWrite)
  else if descriptor = stderrPipe.1 then some (.inl .stderrRead)
  else if descriptor = stderrPipe.2 then some (.inl .stderrWrite)
  else (inherited descriptor).map .inr

/-- An action on the table; it fails on a number that is not open. -/
def FileAction.run (table : DescriptorTable φ) : FileAction → Option (DescriptorTable φ)
  | .dup2 source target =>
      (table source).map fun reference => Function.update table target (some reference)
  | .close descriptor =>
      (table descriptor).map fun _ => Function.update table descriptor none

/-- The actions in the order of the queue. -/
def runActions (actions : List FileAction) (table : DescriptorTable φ) :
    Option (DescriptorTable φ) := actions.foldlM FileAction.run table

/-- The worker's output is wired: its descriptors 1 and 2 are the write ends, and no
other descriptor refers to a pipe. -/
structure Wired (table : DescriptorTable φ) : Prop where
  stdout : table stdoutFileno = some (.inl .stdoutWrite)
  stderr : table stderrFileno = some (.inl .stderrWrite)
  others : ∀ descriptor pipeEnd, descriptor ≠ stdoutFileno → descriptor ≠ stderrFileno →
    table descriptor ≠ some (.inl pipeEnd)

/-- Copying an open descriptor. -/
theorem runActions_dup2 {table : DescriptorTable φ} {source target : Int}
    {reference : PipeEnd ⊕ φ} (h : table source = some reference) (rest : List FileAction) :
    runActions (.dup2 source target :: rest) table =
      runActions rest (Function.update table target (some reference)) := by
  unfold runActions
  rw [List.foldlM_cons, FileAction.run, h]
  rfl

/-- Closing open descriptors, each once. -/
theorem runActions_close {descriptors : List Int} {table : DescriptorTable φ}
    (hopen : ∀ descriptor ∈ descriptors, (table descriptor).isSome) (hdistinct : descriptors.Nodup) :
    runActions (descriptors.map .close) table =
      some fun descriptor => if descriptor ∈ descriptors then none else table descriptor := by
  induction descriptors generalizing table with
  | nil => simp [runActions]
  | cons first rest ih =>
    obtain ⟨hnotin, hdistinct⟩ := List.nodup_cons.mp hdistinct
    obtain ⟨hfirst, hrest⟩ := List.forall_mem_cons.mp hopen
    obtain ⟨reference, hreference⟩ := Option.isSome_iff_exists.mp hfirst
    have hstep : runActions ((first :: rest).map .close) table =
        runActions (rest.map .close) (Function.update table first none) := by
      unfold runActions
      rw [List.map_cons, List.foldlM_cons, FileAction.run, hreference]
      rfl
    rw [hstep, ih ?_ hdistinct]
    · congr 1
      funext descriptor
      by_cases hsame : descriptor = first
      · simp [hsame]
      · simp [hsame]
    · intro descriptor hmem
      rw [Function.update_of_ne (fun heq : descriptor = first => hnotin (heq ▸ hmem))]
      exact hrest descriptor hmem

/-! ## The wiring -/

/-- The child's table once both copies are made.  The second copy takes what the
stderr pipe's write end refers to by then. -/
def redirected (inherited : Int → Option φ) (stdoutPipe stderrPipe : Int × Int) :
    DescriptorTable φ :=
  Function.update
    (Function.update (childTable inherited stdoutPipe stderrPipe) stdoutFileno
      (some (.inl .stdoutWrite)))
    stderrFileno
    (some (.inl (if stderrPipe.2 = stdoutFileno then .stdoutWrite else .stderrWrite)))

/-- The child's table behind the queue. -/
def wiredTable (inherited : Int → Option φ) (stdoutPipe stderrPipe : Int × Int) :
    DescriptorTable φ := fun descriptor =>
  if descriptor ∈ pipeEnds [stdoutPipe, stderrPipe] then none
  else redirected inherited stdoutPipe stderrPipe descriptor

variable {inherited : Int → Option φ} {stdoutPipe stderrPipe : Int × Int}

theorem childTable_ends (hdistinct : (pipeEnds [stdoutPipe, stderrPipe]).Nodup) :
    childTable inherited stdoutPipe stderrPipe stdoutPipe.2 = some (.inl .stdoutWrite) ∧
      childTable inherited stdoutPipe stderrPipe stderrPipe.2 = some (.inl .stderrWrite) := by
  obtain ⟨readOut, writeOut⟩ := stdoutPipe
  obtain ⟨readErr, writeErr⟩ := stderrPipe
  have hends : pipeEnds [(readOut, writeOut), (readErr, writeErr)] =
      [readOut, writeOut, readErr, writeErr] := rfl
  rw [hends] at hdistinct
  simp only [List.nodup_cons, List.mem_cons, List.not_mem_nil, or_false, not_or] at hdistinct
  unfold childTable
  simp [Ne.symm hdistinct.1.1, Ne.symm hdistinct.1.2.2, Ne.symm hdistinct.2.1.2,
    Ne.symm hdistinct.2.2.1]

/-- Outside the pipes the child has what was open before. -/
theorem childTable_other {descriptor : Int}
    (h : descriptor ∉ pipeEnds [stdoutPipe, stderrPipe]) :
    childTable inherited stdoutPipe stderrPipe descriptor =
      (inherited descriptor).map .inr := by
  have hends : pipeEnds [stdoutPipe, stderrPipe] =
      [stdoutPipe.1, stdoutPipe.2, stderrPipe.1, stderrPipe.2] := rfl
  rw [hends] at h
  simp only [List.mem_cons, List.not_mem_nil, or_false, not_or] at h
  obtain ⟨hreadOut, hwriteOut, hreadErr, hwriteErr⟩ := h
  unfold childTable
  rw [if_neg hreadOut, if_neg hwriteOut, if_neg hreadErr, if_neg hwriteErr]

theorem childTable_open {descriptor : Int}
    (h : descriptor ∈ pipeEnds [stdoutPipe, stderrPipe]) :
    (childTable inherited stdoutPipe stderrPipe descriptor).isSome := by
  have hends : pipeEnds [stdoutPipe, stderrPipe] =
      [stdoutPipe.1, stdoutPipe.2, stderrPipe.1, stderrPipe.2] := rfl
  rw [hends] at h
  simp only [List.mem_cons, List.not_mem_nil, or_false] at h
  unfold childTable
  split
  · rfl
  · split
    · rfl
    · split
      · rfl
      · rw [if_pos (by tauto)]
        rfl

/-- A copy closes nothing. -/
theorem update_open {table : DescriptorTable φ} {descriptor target : Int}
    (h : (table descriptor).isSome) (reference : PipeEnd ⊕ φ) :
    (Function.update table target (some reference) descriptor).isSome := by
  by_cases hsame : descriptor = target
  · subst hsame
    rw [Function.update_self]
    rfl
  · rw [Function.update_of_ne hsame]
    exact h

/-- The queue runs to its end, whatever the four numbers are. -/
theorem runActions_queue (hdistinct : (pipeEnds [stdoutPipe, stderrPipe]).Nodup) :
    runActions (.dup2 stdoutPipe.2 stdoutFileno :: .dup2 stderrPipe.2 stderrFileno ::
        (pipeEnds [stdoutPipe, stderrPipe]).map .close)
      (childTable inherited stdoutPipe stderrPipe) =
        some (wiredTable inherited stdoutPipe stderrPipe) := by
  obtain ⟨hstdout, hstderr⟩ := @childTable_ends φ inherited stdoutPipe stderrPipe hdistinct
  have hsecond : Function.update (childTable inherited stdoutPipe stderrPipe) stdoutFileno
      (some (.inl .stdoutWrite)) stderrPipe.2 =
        some (.inl (if stderrPipe.2 = stdoutFileno then .stdoutWrite else .stderrWrite)) := by
    split
    · rename_i hsame
      rw [hsame, Function.update_self]
    · rename_i hother
      rw [Function.update_of_ne hother, hstderr]
  rw [runActions_dup2 hstdout, runActions_dup2 hsecond, runActions_close ?_ hdistinct]
  · rfl
  · intro descriptor hmem
    exact update_open (update_open (childTable_open hmem) _) _

/-- The table is wired exactly when no end has one of the two numbers. -/
theorem wiredTable_wired :
    Wired (wiredTable inherited stdoutPipe stderrPipe) ↔
      ∀ descriptor ∈ pipeEnds [stdoutPipe, stderrPipe],
        descriptor ≠ stdoutFileno ∧ descriptor ≠ stderrFileno := by
  constructor
  · rintro ⟨hstdout, hstderr, -⟩ descriptor hmem
    constructor
    · rintro rfl
      rw [wiredTable, if_pos hmem] at hstdout
      cases hstdout
    · rintro rfl
      rw [wiredTable, if_pos hmem] at hstderr
      cases hstderr
  · intro hapart
    have hstdoutNot : stdoutFileno ∉ pipeEnds [stdoutPipe, stderrPipe] :=
      fun hmem => (hapart _ hmem).1 rfl
    have hstderrNot : stderrFileno ∉ pipeEnds [stdoutPipe, stderrPipe] :=
      fun hmem => (hapart _ hmem).2 rfl
    have hwriteErr : stderrPipe.2 ≠ stdoutFileno :=
      (hapart stderrPipe.2 (by simp [pipeEnds])).1
    refine ⟨?_, ?_, ?_⟩
    · rw [wiredTable, if_neg hstdoutNot, redirected,
        Function.update_of_ne (by simp [stdoutFileno, stderrFileno]), Function.update_self]
    · rw [wiredTable, if_neg hstderrNot, redirected, Function.update_self, if_neg hwriteErr]
    · intro descriptor pipeEnd hnotStdout hnotStderr heq
      rw [wiredTable] at heq
      split at heq
      · cases heq
      · rename_i hother
        rw [redirected, Function.update_of_ne hnotStderr, Function.update_of_ne hnotStdout,
          childTable_other hother] at heq
        obtain ⟨file, -, hfile⟩ := Option.map_eq_some_iff.mp heq
        cases hfile

end Table

/-- Descriptor wiring.  For any four numbers the child runs the whole queue, and it is
wired exactly when none of the numbers is 1 or 2. -/
theorem add_file_actions_wiring {φ : Type} (inherited : Int → Option φ)
    (answers : FileActionAnswers) (stdoutPipe stderrPipe : Int × Int)
    (hdistinct : (pipeEnds [stdoutPipe, stderrPipe]).Nodup)
    (hqueued : (addFileActions answers stdoutPipe stderrPipe).2 = none) :
    ∃ table, runActions (addFileActions answers stdoutPipe stderrPipe).1
        (childTable inherited stdoutPipe stderrPipe) = some table ∧
      (Wired table ↔ ∀ descriptor ∈ pipeEnds [stdoutPipe, stderrPipe],
        descriptor ≠ stdoutFileno ∧ descriptor ≠ stderrFileno) := by
  unfold addFileActions at hqueued ⊢
  rw [queueActions_queued hqueued]
  exact ⟨_, runActions_queue hdistinct, wiredTable_wired⟩

/-- With the standard descriptors open the pipes have other numbers. -/
theorem add_file_actions_wiring_usual :
    ∃ table, runActions (addFileActions ⟨none, none, none, none, none, none⟩ (3, 4) (5, 6)).1
        (childTable (fun descriptor => if descriptor < 3 then some () else none) (3, 4) (5, 6)) =
          some table ∧ Wired table := by
  obtain ⟨table, hrun, hwired⟩ := add_file_actions_wiring
    (fun descriptor => if descriptor < 3 then some () else none)
    ⟨none, none, none, none, none, none⟩ (3, 4) (5, 6) (by decide) rfl
  exact ⟨table, hrun, hwired.mpr (by decide)⟩

/-- With descriptor 1 closed at the start the first pipe gets it, and the worker has no
standard output. -/
theorem add_file_actions_wiring_counterexample :
    ¬ ∃ table, runActions (addFileActions ⟨none, none, none, none, none, none⟩ (1, 3) (4, 5)).1
        (childTable (fun descriptor => if descriptor = 0 ∨ descriptor = 2 then some () else none)
          (1, 3) (4, 5)) = some table ∧ Wired table := by
  rintro ⟨table, hrun, hwired⟩
  cases hrun
  cases hwired.stdout

end LearnApue.Gateway
