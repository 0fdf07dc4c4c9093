import LearnApue.Foundation.ByteFile
import LearnApue.Foundation.CInt
import LearnApue.Foundation.Decimal
import LearnApue.Foundation.Refinement

set_option autoImplicit false

/-!
# Threads that add to a file

`add.c`: each thread opens the file, and under a mutex reads the number in its first line,
goes back to the front, prints the next number and closes the file, which is when the
number is written.  No update is lost, whatever the threads do in between
(`addFile_counts`).

A failing `pthread_create` or `fopen` calls `exit`, which flushes and closes the streams of
the other threads while these go on.  A thread that then uses its stream, or calls `exit`
as well, does something undefined; the model stops there.
-/

namespace LearnApue.Para.AddFile

open LearnApue.Foundation LearnApue.Foundation.ByteFile LearnApue.Foundation.EventMachine

/-! ## The transcription -/

/-- `BUFSIZE`. -/
def bufsize : Nat := 1024

/-- `fgets(buf, BUFSIZE, fp)` at the front of a file: what it puts before the NUL. -/
def fgets (file : Bytes) : Option Bytes :=
  if file = [] then none
  else
    let room := file.take (bufsize - 1)
    some ((room.takeWhile fun b => b ≠ newline) ++ (room.dropWhile fun b => b ≠ newline).take 1)

/-- `atoi`, where the number is an `int`. -/
def atoi (text : Bytes) : Option Int := toInt? (strtoll (cString text)).value

/-- `"%d\n"`. -/
def numberLine (value : Int) : Bytes := decimalInt value ++ [newline]

/-- Where a thread stands, with its `buf`, or what its stream holds back. -/
inductive At where
  | unborn
  | started
  | opened
  | locked
  | read (buf : Bytes)
  | sought (buf : Bytes)
  | printed (text : Bytes)
  | closed
  | ended
  | exiting
  deriving DecidableEq, Repr

/-- A thread, and whether `exit` has closed its stream. -/
structure AddThread where
  place : At
  shut : Bool
  deriving DecidableEq, Repr

/-- Where `main` stands. -/
inductive MainAt where
  | creating (count : Nat)
  | joining (count : Nat)
  | exiting
  | ended
  deriving DecidableEq, Repr

/-- The file, the holder of `mut`, the threads, how often `exit` was called, whether it has
come to its end, and whether a step had no defined behaviour. -/
structure Adding where
  file : Bytes
  held : Option Nat
  threads : List AddThread
  main : MainAt
  exits : Nat
  finished : Bool
  fault : Bool
  deriving DecidableEq, Repr

/-- What can happen: `main` or a thread goes on, its `pthread_create` or `fopen` fails,
`exit` flushes and closes the stream of a thread, or ends the process. -/
inductive AddEvent where
  | main
  | mainFails
  | thread (index : Nat)
  | threadFails (index : Nat)
  | shut (index : Nat)
  | finish
  deriving DecidableEq, Repr

/-- The next call of the thread is one on its stream. -/
def At.usesStream : At → Bool
  | .locked => true
  | .read _ => true
  | .sought _ => true
  | .printed _ => true
  | _ => false

/-- The thread has a stream. -/
def At.hasStream (place : At) : Bool := place = .opened || place.usesStream

/-- The file with what the stream of a thread holds back. -/
def At.flush (file : Bytes) : At → Bytes
  | .printed text => overwrite file 0 text
  | _ => file

namespace Adding

/-- A thread changes. -/
def move (state : Adding) (index : Nat) (thread : AddThread) : Adding :=
  { state with threads := state.threads.set index thread }

/-- A step without defined behaviour. -/
def undefined (state : Adding) : Adding := { state with fault := true }

/-- A call of `exit`, which is undefined when it was called before. -/
def callExit (state : Adding) : Adding :=
  { state with exits := state.exits + 1, fault := state.fault || decide (0 < state.exits) }

/-- The next step of `main`. -/
def stepMain (state : Adding) : Option Adding :=
  match state.main with
  | .creating count =>
      if count < state.threads.length then
        some { state.move count ⟨.started, false⟩ with main := .creating (count + 1) }
      else some { state with main := .joining 0 }
  | .joining count =>
      if count < state.threads.length then
        if (state.threads[count]?.map AddThread.place) = some .ended then
          some { state with main := .joining (count + 1) }
        else none
      else some ({ state with main := .ended } : Adding).callExit
  | .exiting => none
  | .ended => none

/-- The next `pthread_create` fails. -/
def failMain (state : Adding) : Option Adding :=
  match state.main with
  | .creating count =>
      if count < state.threads.length then some ({ state with main := .exiting } : Adding).callExit
      else none
  | _ => none

/-- The next step of `thr_add`. -/
def stepThread (state : Adding) (index : Nat) : Option Adding :=
  match state.threads[index]? with
  | none => none
  | some thread =>
      if thread.shut = true ∧ thread.place.usesStream = true then some state.undefined
      else
        match thread.place with
        | .started => some (state.move index { thread with place := .opened })
        | .opened =>
            if state.held = none then
              some { state.move index { thread with place := .locked } with held := some index }
            else none
        | .locked =>
            match fgets state.file with
            | none => some state.undefined
            | some buf => some (state.move index { thread with place := .read buf })
        | .read buf => some (state.move index { thread with place := .sought buf })
        | .sought buf =>
            match (atoi buf).bind fun value => toInt? (value + 1) with
            | none => some state.undefined
            | some value =>
                some (state.move index { thread with place := .printed (numberLine value) })
        | .printed text =>
            some { state.move index { thread with place := .closed } with
              file := overwrite state.file 0 text }
        | .closed =>
            some { state.move index { thread with place := .ended } with held := none }
        | _ => none

/-- The `fopen` of a thread fails. -/
def failThread (state : Adding) (index : Nat) : Option Adding :=
  match state.threads[index]? with
  | some ⟨.started, shut⟩ => some (state.move index ⟨.exiting, shut⟩).callExit
  | _ => none

/-- `exit` comes to the stream of a thread. -/
def shutStream (state : Adding) (index : Nat) : Option Adding :=
  match state.threads[index]? with
  | none => none
  | some thread =>
      if 0 < state.exits ∧ thread.place.hasStream = true ∧ thread.shut = false then
        some { state.move index { thread with shut := true } with
          file := thread.place.flush state.file }
      else none

end Adding

/-- One event, when it is possible.  A stream that a thread opens or prints to behind the
loop of `exit` over the streams is not flushed any more. -/
def step (state : Adding) (event : AddEvent) : Option Adding :=
  if state.finished = true ∨ state.fault = true then none
  else
    match event with
    | .main => state.stepMain
    | .mainFails => state.failMain
    | .thread index => state.stepThread index
    | .threadFails index => state.failThread index
    | .shut index => state.shutStream index
    | .finish => if 0 < state.exits then some { state with finished := true } else none

/-- The start of `main`. -/
def start (file : Bytes) (threads : Nat) : Adding :=
  ⟨file, none, List.replicate threads ⟨.unborn, false⟩, .creating 0, 0, false, false⟩

/-! ## The number in the file -/

/-- What a thread reads of a file. -/
def numberOf (file : Bytes) : Option Int := (fgets file).bind atoi

theorem numberLine_length {value : Int} (h : InInt value) : (numberLine value).length ≤ 12 := by
  have hdigits : (decimalInt value).length ≤ 10 + 1 := by
    refine decimalInt_length_le (by decide) ?_
    unfold InInt intMin intMax at h
    omega
  rw [numberLine, List.length_append, List.length_singleton]
  omega

theorem decimalInt_plain (value : Int) : ∀ b ∈ decimalInt value, b ≠ newline ∧ b ≠ nul := by
  have hdigit : ∀ b, isDigit b = true → b ≠ newline ∧ b ≠ nul := by
    intro b hb
    constructor
    · rintro rfl
      exact absurd hb (by decide)
    · rintro rfl
      exact absurd hb (by decide)
  intro b hb
  unfold decimalInt at hb
  split at hb
  · rcases List.mem_cons.mp hb with rfl | hmem
    · decide
    · exact hdigit b (isDigit_of_mem_decimalNat hmem)
  · exact hdigit b (isDigit_of_mem_decimalNat hb)

/-- A line that was printed at the front is read again. -/
theorem fgets_overwrite {value : Int} (h : InInt value) (file : Bytes) :
    fgets (overwrite file 0 (numberLine value)) = some (numberLine value) := by
  have hlength := numberLine_length h
  have hfile : overwrite file 0 (numberLine value) =
      numberLine value ++ file.drop (numberLine value).length := by
    rw [overwrite_of_le (Nat.zero_le _), List.take_zero, List.nil_append, Nat.zero_add]
  have hplain : ∀ b ∈ decimalInt value, (decide (b ≠ newline)) = true := fun b hb =>
    decide_eq_true (decimalInt_plain value b hb).1
  have hroom : ∃ rest, (overwrite file 0 (numberLine value)).take (bufsize - 1) =
      decimalInt value ++ newline :: rest := by
    refine ⟨(file.drop (numberLine value).length).take (bufsize - 1 - (numberLine value).length), ?_⟩
    rw [hfile, List.take_append, List.take_of_length_le (by unfold bufsize; omega), numberLine,
      List.append_assoc, List.singleton_append]
  obtain ⟨rest, hrest⟩ := hroom
  have hne : overwrite file 0 (numberLine value) ≠ [] := by
    intro hnil
    rw [hnil] at hrest
    simp at hrest
  rw [fgets, if_neg hne, hrest]
  dsimp only
  rw [List.takeWhile_append_of_pos hplain, List.dropWhile_append_of_pos hplain]
  simp [numberLine]

theorem atoi_numberLine {value : Int} (h : InInt value) : atoi (numberLine value) = some value := by
  have hnul : nul ∉ numberLine value := by
    rw [numberLine, List.mem_append, List.mem_singleton]
    rintro (hmem | hend)
    · exact (decimalInt_plain value nul hmem).2 rfl
    · exact absurd hend (by decide)
  have hbounds := h
  unfold InInt intMin intMax at hbounds
  rw [atoi, cString_of_nul_notMem hnul, numberLine,
    strtoll_decimalInt (by omega) (by omega) (endsNumeral_cons (by decide) []),
    toInt?_eq_some h]

theorem numberOf_overwrite {value : Int} (h : InInt value) (file : Bytes) :
    numberOf (overwrite file 0 (numberLine value)) = some value := by
  rw [numberOf, fgets_overwrite h, Option.bind_some, atoi_numberLine h]

/-! ## What holds in every state -/

/-- The number of the thread has come to the file, from its `fclose` or from `exit`. -/
def AddThread.wrote (thread : AddThread) : Bool :=
  match thread.place with
  | .closed => true
  | .ended => true
  | .printed _ => thread.shut
  | _ => false

/-- The thread is between the lock and the unlock. -/
def At.inSection (place : At) : Bool := place.usesStream || place = .closed

/-- The thread has called `exit`. -/
def AddThread.called (thread : AddThread) : Bool := thread.place = .exiting

/-- How often `main` has called `exit`. -/
def MainAt.calls : MainAt → Nat
  | .exiting => 1
  | .ended => 1
  | _ => 0

/-- What `main` knows of the threads. -/
def MainOk (threads : List AddThread) : MainAt → Prop
  | .creating count => count ≤ threads.length ∧
      ∀ i thread, threads[i]? = some thread → (thread.place = .unborn ↔ count ≤ i)
  | .joining count => (∀ thread ∈ threads, thread.place ≠ .unborn) ∧
      ∀ i thread, threads[i]? = some thread → i < count → thread.place = .ended
  | .exiting => True
  | .ended => ∀ thread ∈ threads, thread.place = .ended

/-- The section: its thread alone holds the mutex, what it has read is the first line of the
file, and what it has printed is the next number. -/
structure Going (number : Int) (state : Adding) : Prop where
  holder : ∀ i, state.held = some i → i < state.threads.length
  inside : ∀ (i : Nat) (thread : AddThread), state.threads[i]? = some thread →
    (thread.place.inSection = true ↔ state.held = some i)
  read : ∀ (i : Nat) (thread : AddThread) (buf : Bytes), state.threads[i]? = some thread →
    thread.place = .read buf ∨ thread.place = .sought buf → fgets state.file = some buf
  printed : ∀ (i : Nat) (text : Bytes), state.threads[i]? = some ⟨.printed text, false⟩ →
    text = numberLine (number + state.threads.countP AddThread.wrote + 1)

/-- The number of the file is the first one with an addition for each thread that wrote, and
something undefined needs a call of `exit`. -/
structure AddInv (number : Int) (threads : Nat) (state : Adding) : Prop where
  length : state.threads.length = threads
  value : numberOf state.file = some (number + state.threads.countP AddThread.wrote)
  main : MainOk state.threads state.main
  calls : state.exits = state.threads.countP AddThread.called + state.main.calls
  shut : ∀ thread ∈ state.threads, thread.shut = true → 0 < state.exits
  cause : state.fault = true → 2 ≤ state.exits ∨
    ∃ thread ∈ state.threads, thread.shut = true ∧ thread.place.usesStream = true
  going : state.fault = false → Going number state

section Steps

variable {number : Int} {state : Adding} {index : Nat} {old new : AddThread} {threads : Nat}

theorem countP_move {p : AddThread → Bool} {all : List AddThread} (hold : all[index]? = some old)
    (new : AddThread) :
    (all.set index new).countP p + (if p old then 1 else 0) =
      all.countP p + if p new then 1 else 0 := by
  obtain ⟨hlt, hget⟩ := List.getElem?_eq_some_iff.mp hold
  rw [List.countP_set hlt, hget]
  have hpos : p old = true → 0 < all.countP p := fun hp =>
    List.countP_pos_iff.mpr ⟨old, hget ▸ List.getElem_mem hlt, hp⟩
  split
  · rename_i hp
    have := hpos hp
    omega
  · omega

/-- A move that changes nothing of what is counted. -/
theorem same_count {p : AddThread → Bool} {all : List AddThread} (hold : all[index]? = some old)
    (hsame : p old = p new) : (all.set index new).countP p = all.countP p := by
  have hmove := @countP_move index old p all hold new
  rw [hsame] at hmove
  omega

theorem wrote_lt {all : List AddThread} (hold : all[index]? = some old)
    (hwrote : old.wrote = false) : all.countP AddThread.wrote + 1 ≤ all.length := by
  have hmove := @countP_move index old AddThread.wrote all hold ⟨.closed, false⟩
  have hle := List.countP_le_length (p := AddThread.wrote) (l := all.set index ⟨.closed, false⟩)
  rw [List.length_set] at hle
  rw [hwrote] at hmove
  simp only [Bool.false_eq_true, if_false, AddThread.wrote, if_true] at hmove
  omega

/-- A thread of the list with one changed is that one or an old one. -/
theorem getElem?_move {all : List AddThread} {i : Nat} {thread : AddThread}
    (h : (all.set index new)[i]? = some thread) :
    (i = index ∧ thread = new) ∨ (i ≠ index ∧ all[i]? = some thread) := by
  rw [List.getElem?_set] at h
  split at h
  · rename_i heq
    split at h
    · exact .inl ⟨heq.symm, (Option.some.inj h).symm⟩
    · cases h
  · rename_i hne
    exact .inr ⟨Ne.symm hne, h⟩

/-- One thread moves: the others notice nothing, or are not in the section. -/
theorem Going.moved (h : Going number state) (hold : state.threads[index]? = some old)
    {after : Adding} (hthreads : after.threads = state.threads.set index new)
    (hself : new.place.inSection = true ↔ after.held = some index)
    (hothers : ∀ i, i ≠ index → (after.held = some i ↔ state.held = some i))
    (hread : ∀ buf, new.place = .read buf ∨ new.place = .sought buf →
      fgets after.file = some buf)
    (hprinted : ∀ text, new = ⟨.printed text, false⟩ →
      text = numberLine (number + after.threads.countP AddThread.wrote + 1))
    (hframe : (after.file = state.file ∧ old.wrote = new.wrote) ∨ state.held = some index) :
    Going number after := by
  have hlt := (List.getElem?_eq_some_iff.mp hold).1
  have houtside : ∀ {i thread}, i ≠ index → state.threads[i]? = some thread →
      thread.place.inSection = true → state.held ≠ some index := by
    intro i thread hne hthread hin hheld
    have hown := (h.inside i thread hthread).mp hin
    rw [hheld, Option.some.injEq] at hown
    exact hne hown.symm
  constructor
  · intro i hi
    rw [hthreads, List.length_set]
    by_cases hne : i = index
    · rw [hne]
      exact hlt
    · exact h.holder i ((hothers i hne).mp hi)
  · intro i thread hthread
    rw [hthreads] at hthread
    rcases getElem?_move hthread with ⟨rfl, rfl⟩ | ⟨hne, hthread⟩
    · exact hself
    · rw [h.inside i thread hthread]
      exact (hothers i hne).symm
  · intro i thread buf hthread hplace
    rw [hthreads] at hthread
    rcases getElem?_move hthread with ⟨-, rfl⟩ | ⟨hne, hthread⟩
    · exact hread buf hplace
    · rcases hframe with ⟨hfile, -⟩ | hheld
      · rw [hfile]
        exact h.read i thread buf hthread hplace
      · refine absurd hheld (houtside hne hthread ?_)
        rcases hplace with hplace | hplace <;> rw [hplace] <;> rfl
  · intro i text hthread
    rw [hthreads] at hthread
    rcases getElem?_move hthread with ⟨-, hnew⟩ | ⟨hne, hthread⟩
    · exact hprinted text hnew.symm
    · rcases hframe with ⟨-, hwrote⟩ | hheld
      · rw [hthreads, same_count hold hwrote]
        exact h.printed i text hthread
      · exact absurd hheld (houtside hne hthread rfl)

/-- A thread that moves between two places of its life is none that `main` knows of. -/
theorem MainOk.move {all : List AddThread} {main : MainAt} (h : MainOk all main)
    (hold : all[index]? = some old) (hborn : old.place ≠ .unborn) (hlive : old.place ≠ .ended)
    (hnew : new.place ≠ .unborn) : MainOk (all.set index new) main := by
  cases main with
  | creating count =>
    refine ⟨by rw [List.length_set]; exact h.1, ?_⟩
    intro i thread hthread
    rcases getElem?_move hthread with ⟨rfl, rfl⟩ | ⟨-, hthread⟩
    · rw [← h.2 i old hold]
      exact ⟨fun hfalse => absurd hfalse hnew, fun hfalse => absurd hfalse hborn⟩
    · exact h.2 i thread hthread
  | joining count =>
    refine ⟨?_, ?_⟩
    · intro thread hmem
      rcases List.mem_or_eq_of_mem_set hmem with hmem | rfl
      · exact h.1 thread hmem
      · exact hnew
    · intro i thread hthread hi
      rcases getElem?_move hthread with ⟨rfl, rfl⟩ | ⟨-, hthread⟩
      · exact absurd (h.2 i old hold hi) hlive
      · exact h.2 i thread hthread hi
  | exiting => trivial
  | ended => exact absurd (h old (List.mem_of_getElem? hold)) hlive

/-! ## Steps -/

theorem inInt_of_numberOf {file : Bytes} {value : Int} (h : numberOf file = some value) :
    InInt value := by
  obtain ⟨buf, -, hbuf⟩ := Option.bind_eq_some_iff.mp h
  obtain ⟨rfl, hint⟩ := toInt?_eq_some_iff.mp hbuf
  exact hint

/-- The next number is an `int` while a thread has not written. -/
theorem AddInv.next_inInt (h : AddInv number threads state) (hroom : number + threads ≤ intMax)
    (hold : state.threads[index]? = some old) (hwrote : old.wrote = false) :
    InInt (number + state.threads.countP AddThread.wrote + 1) := by
  have hnow := (inInt_of_numberOf h.value).1
  have hlt := wrote_lt hold hwrote
  have hlength := h.length
  exact ⟨by omega, by omega⟩

/-- A thread that moves and does not call `exit`. -/
theorem AddInv.moved (h : AddInv number threads state) (hold : state.threads[index]? = some old)
    {after : Adding} (hthreads : after.threads = state.threads.set index new)
    (hmain : after.main = state.main) (hexits : after.exits = state.exits)
    (hfault : after.fault = false) (hborn : old.place ≠ .unborn) (hlive : old.place ≠ .ended)
    (hnew : new.place ≠ .unborn) (hcalled : old.called = new.called)
    (hshut : new.shut = true → 0 < state.exits)
    (hvalue : numberOf after.file = some (number + after.threads.countP AddThread.wrote))
    (hgoing : Going number after) : AddInv number threads after where
  length := by rw [hthreads, List.length_set, h.length]
  value := hvalue
  main := by
    rw [hthreads, hmain]
    exact h.main.move hold hborn hlive hnew
  calls := by rw [hexits, hthreads, hmain, same_count hold hcalled, h.calls]
  shut := by
    intro thread hmem hthread
    rw [hthreads] at hmem
    rw [hexits]
    rcases List.mem_or_eq_of_mem_set hmem with hmem | rfl
    · exact h.shut thread hmem hthread
    · exact hshut hthread
  cause := by
    intro hundefined
    rw [hfault] at hundefined
    cases hundefined
  going := fun _ => hgoing

/-- A move in front of the lock, or behind it, that leaves the file. -/
theorem AddInv.quiet (h : AddInv number threads state) (hfault : state.fault = false)
    (hold : state.threads[index]? = some old) (hborn : old.place ≠ .unborn)
    (hlive : old.place ≠ .ended) (hnew : new.place ≠ .unborn) (hcalled : old.called = new.called)
    (hshut : new.shut = old.shut) (hsection : new.place.inSection = old.place.inSection)
    (hwrote : old.wrote = new.wrote)
    (hread : ∀ buf, new.place = .read buf ∨ new.place = .sought buf →
      fgets state.file = some buf)
    (hprinted : ∀ text, new = ⟨.printed text, false⟩ →
      text = numberLine (number + state.threads.countP AddThread.wrote + 1)) :
    AddInv number threads (state.move index new) := by
  have hcount := same_count hold hwrote
  have hgoing := h.going hfault
  refine h.moved hold rfl rfl rfl hfault hborn hlive hnew hcalled
    (fun hnow => h.shut old (List.mem_of_getElem? hold) (hshut ▸ hnow)) (hcount ▸ h.value)
    (hgoing.moved hold rfl ?_ (fun _ _ => Iff.rfl) hread (hcount ▸ hprinted) (.inl ⟨rfl, hwrote⟩))
  rw [hsection]
  exact hgoing.inside index old hold

/-- A thread locks the mutex. -/
theorem AddInv.lock (h : AddInv number threads state) (hfault : state.fault = false)
    {shut : Bool} (hold : state.threads[index]? = some ⟨.opened, shut⟩)
    (hheld : state.held = none) :
    AddInv number threads
      { state.move index ⟨.locked, shut⟩ with held := some index } := by
  have hwrote : AddThread.wrote ⟨.opened, shut⟩ = AddThread.wrote ⟨.locked, shut⟩ := rfl
  have hcount := same_count hold hwrote
  refine h.moved hold rfl rfl rfl hfault nofun nofun nofun rfl
    (fun hnow => h.shut _ (List.mem_of_getElem? hold) hnow) (hcount ▸ h.value)
    ((h.going hfault).moved hold rfl ?_ ?_ nofun nofun (.inl ⟨rfl, hwrote⟩))
  · exact ⟨fun _ => rfl, fun _ => rfl⟩
  · intro i hne
    rw [hheld]
    exact ⟨fun heq => absurd (Option.some.inj heq).symm hne, nofun⟩

/-- The number that a stream holds back is the next one. -/
theorem AddInv.numberOf_printed (h : AddInv number threads state) (hroom : number + threads ≤ intMax)
    (hfault : state.fault = false) {text : Bytes}
    (hold : state.threads[index]? = some ⟨.printed text, false⟩) :
    numberOf (overwrite state.file 0 text) =
      some (number + state.threads.countP AddThread.wrote + 1) := by
  rw [(h.going hfault).printed index text hold]
  exact numberOf_overwrite (h.next_inInt hroom hold rfl) state.file

/-- Closing the file writes the number that was printed. -/
theorem AddInv.close (h : AddInv number threads state) (hroom : number + threads ≤ intMax)
    (hfault : state.fault = false) {text : Bytes}
    (hold : state.threads[index]? = some ⟨.printed text, false⟩) :
    AddInv number threads
      { state.move index ⟨.closed, false⟩ with file := overwrite state.file 0 text } := by
  have hgoing := h.going hfault
  have hheld := (hgoing.inside index _ hold).mp rfl
  have hcount := @countP_move index _ AddThread.wrote _ hold ⟨.closed, false⟩
  simp only [AddThread.wrote, Bool.false_eq_true, if_false, if_true, Nat.add_zero] at hcount
  refine h.moved hold rfl rfl rfl hfault nofun nofun nofun rfl nofun ?_
    (hgoing.moved hold rfl ⟨fun _ => hheld, fun _ => rfl⟩ (fun _ _ => Iff.rfl) nofun nofun
      (.inr hheld))
  show numberOf (overwrite state.file 0 text) =
    some (number + ((state.threads.set index ⟨.closed, false⟩).countP AddThread.wrote : Nat))
  rw [h.numberOf_printed hroom hfault hold, hcount]
  push_cast
  rw [add_assoc]

/-- A thread unlocks the mutex. -/
theorem AddInv.unlock (h : AddInv number threads state) (hfault : state.fault = false)
    {shut : Bool} (hold : state.threads[index]? = some ⟨.closed, shut⟩) :
    AddInv number threads { state.move index ⟨.ended, shut⟩ with held := none } := by
  have hgoing := h.going hfault
  have hheld := (hgoing.inside index _ hold).mp rfl
  have hwrote : AddThread.wrote ⟨.closed, shut⟩ = AddThread.wrote ⟨.ended, shut⟩ := rfl
  have hcount := same_count hold hwrote
  refine h.moved hold rfl rfl rfl hfault nofun nofun nofun rfl
    (fun hnow => h.shut _ (List.mem_of_getElem? hold) hnow) (hcount ▸ h.value)
    (hgoing.moved hold rfl ⟨nofun, nofun⟩ ?_ nofun nofun (.inr hheld))
  intro i hne
  rw [hheld]
  exact ⟨nofun, fun heq => absurd (Option.some.inj heq).symm hne⟩

/-- A thread uses a stream that `exit` has closed. -/
theorem AddInv.undefined (h : AddInv number threads state)
    (hold : state.threads[index]? = some old)
    (hcause : old.shut = true ∧ old.place.usesStream = true) :
    AddInv number threads state.undefined :=
  ⟨h.length, h.value, h.main, h.calls, h.shut,
    fun _ => .inr ⟨old, List.mem_of_getElem? hold, hcause⟩, nofun⟩

theorem stepThread_addInv {next : Adding} (hroom : number + threads ≤ intMax)
    (h : AddInv number threads state) (hfault : state.fault = false)
    (hstep : state.stepThread index = some next) : AddInv number threads next := by
  have hgoing := h.going hfault
  unfold Adding.stepThread at hstep
  cases hold : state.threads[index]? with
  | none =>
    rw [hold] at hstep
    cases hstep
  | some thread =>
    obtain ⟨place, shut⟩ := thread
    rw [hold] at hstep
    dsimp only at hstep
    split at hstep
    · rename_i hcause
      cases hstep
      exact h.undefined hold hcause
    rename_i hdefined
    have hopen : place.usesStream = true → shut = false := fun huses =>
      Bool.eq_false_iff.mpr fun hshut => hdefined ⟨hshut, huses⟩
    cases place with
    | started =>
      cases hstep
      exact h.quiet hfault hold nofun nofun nofun rfl rfl rfl rfl nofun nofun
    | opened =>
      dsimp only at hstep
      split at hstep
      · rename_i hheld
        cases hstep
        exact h.lock hfault hold hheld
      · cases hstep
    | locked =>
      obtain ⟨buf, hbuf, -⟩ := Option.bind_eq_some_iff.mp h.value
      dsimp only at hstep
      rw [hbuf] at hstep
      cases hstep
      refine h.quiet hfault hold nofun nofun nofun rfl rfl rfl rfl ?_ nofun
      rintro buf' (heq | heq)
      · cases heq
        exact hbuf
      · cases heq
    | read buf =>
      cases hstep
      refine h.quiet hfault hold nofun nofun nofun rfl rfl rfl rfl ?_ nofun
      rintro buf' (heq | heq)
      · cases heq
      · cases heq
        exact hgoing.read index _ buf hold (.inl rfl)
    | sought buf =>
      obtain rfl := hopen rfl
      have hvalue := h.value
      rw [numberOf, hgoing.read index _ buf hold (.inr rfl), Option.bind_some] at hvalue
      dsimp only at hstep
      rw [hvalue, Option.bind_some, toInt?_eq_some (h.next_inInt hroom hold rfl)] at hstep
      cases hstep
      refine h.quiet hfault hold nofun nofun nofun rfl rfl rfl rfl nofun ?_
      rintro text ⟨⟩
      rfl
    | printed text =>
      obtain rfl := hopen rfl
      cases hstep
      exact h.close hroom hfault hold
    | closed =>
      cases hstep
      exact h.unlock hfault hold
    | _ => cases hstep

/-- `exit` flushes and closes the stream of a thread. -/
theorem shutStream_addInv {next : Adding} (hroom : number + threads ≤ intMax)
    (h : AddInv number threads state) (hfault : state.fault = false)
    (hstep : state.shutStream index = some next) : AddInv number threads next := by
  have hgoing := h.going hfault
  unfold Adding.shutStream at hstep
  cases hold : state.threads[index]? with
  | none =>
    rw [hold] at hstep
    cases hstep
  | some thread =>
    obtain ⟨place, shut⟩ := thread
    rw [hold] at hstep
    dsimp only at hstep
    split at hstep
    · rename_i hopen
      obtain ⟨hexits, hstream, rfl⟩ := hopen
      cases hstep
      have hsection := hgoing.inside index _ hold
      by_cases hprinted : ∃ text, place = .printed text
      · obtain ⟨text, rfl⟩ := hprinted
        have hheld := hsection.mp rfl
        have hcount := @countP_move index _ AddThread.wrote _ hold ⟨.printed text, true⟩
        simp only [AddThread.wrote, Bool.false_eq_true, if_false, if_true, Nat.add_zero] at hcount
        refine h.moved hold rfl rfl rfl hfault nofun nofun nofun rfl (fun _ => hexits) ?_
          (hgoing.moved hold rfl hsection (fun _ _ => Iff.rfl) nofun nofun (.inr hheld))
        show numberOf (overwrite state.file 0 text) =
          some (number + ((state.threads.set index ⟨.printed text, true⟩).countP
            AddThread.wrote : Nat))
        rw [h.numberOf_printed hroom hfault hold, hcount]
        push_cast
        rw [add_assoc]
      · have hfile : place.flush state.file = state.file := by
          cases place with
          | printed text => exact absurd ⟨text, rfl⟩ hprinted
          | _ => rfl
        have hwrote : AddThread.wrote ⟨place, false⟩ = AddThread.wrote ⟨place, true⟩ := by
          cases place with
          | printed text => exact absurd ⟨text, rfl⟩ hprinted
          | _ => rfl
        rw [hfile]
        refine h.moved hold rfl rfl rfl hfault ?_ ?_ ?_ rfl (fun _ => hexits)
          ((same_count hold hwrote) ▸ h.value)
          (hgoing.moved hold rfl hsection (fun _ _ => Iff.rfl)
            (fun buf => hgoing.read index ⟨place, false⟩ buf hold) nofun (.inl ⟨rfl, hwrote⟩))
        all_goals
          rintro rfl
          cases hstream
    · cases hstep

/-- A thread whose `fopen` fails calls `exit`. -/
theorem failThread_addInv {next : Adding} (h : AddInv number threads state)
    (hfault : state.fault = false) (hstep : state.failThread index = some next) :
    AddInv number threads next := by
  unfold Adding.failThread at hstep
  split at hstep
  · rename_i shut hold
    cases hstep
    have hwrote : AddThread.wrote ⟨.started, shut⟩ = AddThread.wrote ⟨.exiting, shut⟩ := rfl
    have hcalled := @countP_move index _ AddThread.called _ hold ⟨.exiting, shut⟩
    simp only [AddThread.called, reduceCtorEq, decide_false, decide_true, Bool.false_eq_true,
      if_false, if_true, Nat.add_zero] at hcalled
    refine ⟨(List.length_set ..).trans h.length, (same_count hold hwrote) ▸ h.value,
      h.main.move hold nofun nofun nofun, ?_, fun _ _ _ => Nat.succ_pos _, ?_, fun _ => ?_⟩
    · have hcalls := h.calls
      show state.exits + 1 = (state.threads.set index ⟨.exiting, shut⟩).countP AddThread.called +
        state.main.calls
      omega
    · intro hundefined
      simp only [Adding.callExit, Adding.move, hfault, Bool.false_or, decide_eq_true_eq]
        at hundefined
      exact .inl (Nat.succ_le_succ hundefined)
    · have hsection := (h.going hfault).inside index _ hold
      exact (h.going hfault).moved hold rfl hsection (fun _ _ => Iff.rfl) nofun nofun
        (.inl ⟨rfl, hwrote⟩)
  · cases hstep

/-- `main` calls `exit`. -/
theorem AddInv.callExit (h : AddInv number threads state) (hfault : state.fault = false)
    {main : MainAt} (hmain : MainOk state.threads main) (hbefore : state.main.calls = 0)
    (hafter : main.calls = 1) :
    AddInv number threads ({ state with main := main } : Adding).callExit := by
  refine ⟨h.length, h.value, hmain, ?_, fun _ _ _ => Nat.succ_pos _, ?_, fun _ => ?_⟩
  · show state.exits + 1 = state.threads.countP AddThread.called + main.calls
    rw [h.calls, hbefore, hafter]
  · intro hundefined
    simp only [Adding.callExit, hfault, Bool.false_or, decide_eq_true_eq] at hundefined
    exact .inl (Nat.succ_le_succ hundefined)
  · have hgoing := h.going hfault
    exact ⟨hgoing.holder, hgoing.inside, hgoing.read, hgoing.printed⟩

theorem failMain_addInv {next : Adding} (h : AddInv number threads state)
    (hfault : state.fault = false) (hstep : state.failMain = some next) :
    AddInv number threads next := by
  unfold Adding.failMain at hstep
  split at hstep
  · rename_i count hat
    split at hstep
    · cases hstep
      exact h.callExit hfault trivial (by rw [hat]; rfl) rfl
    · cases hstep
  · cases hstep

/-- `main` goes on without a call of `exit`. -/
theorem AddInv.mainMoves (h : AddInv number threads state) (hfault : state.fault = false)
    {main : MainAt} (hmain : MainOk state.threads main) (hcalls : main.calls = state.main.calls) :
    AddInv number threads { state with main := main } := by
  have hgoing := h.going hfault
  refine ⟨h.length, h.value, hmain, ?_, h.shut, ?_,
    fun _ => ⟨hgoing.holder, hgoing.inside, hgoing.read, hgoing.printed⟩⟩
  · show state.exits = state.threads.countP AddThread.called + main.calls
    rw [hcalls, h.calls]
  · intro hundefined
    exact absurd hundefined (by rw [hfault]; exact Bool.false_ne_true)

/-- The thread that `main` creates next is not born. -/
theorem AddInv.unborn (h : AddInv number threads state) {count : Nat}
    (hat : state.main = .creating count) (hlt : count < state.threads.length) :
    ∃ shut, state.threads[count]? = some ⟨.unborn, shut⟩ := by
  have hmain := h.main
  rw [hat] at hmain
  have hthread := List.getElem?_eq_getElem hlt
  have hplace := (hmain.2 count _ hthread).mpr le_rfl
  exact ⟨state.threads[count].shut, by rw [hthread, ← hplace]⟩

/-- `main` creates a thread. -/
theorem AddInv.create (h : AddInv number threads state) (hfault : state.fault = false)
    {count : Nat} (hat : state.main = .creating count) (hlt : count < state.threads.length) :
    AddInv number threads
      { state.move count ⟨.started, false⟩ with main := .creating (count + 1) } := by
  obtain ⟨shut, hold⟩ := h.unborn hat hlt
  have hgoing := h.going hfault
  have hmain := h.main
  rw [hat] at hmain
  have hwrote : AddThread.wrote ⟨.unborn, shut⟩ = AddThread.wrote ⟨.started, false⟩ := rfl
  refine ⟨(List.length_set ..).trans h.length, (same_count hold hwrote) ▸ h.value, ⟨?_, ?_⟩, ?_, ?_,
    ?_, fun _ => ?_⟩
  · show count + 1 ≤ (state.threads.set count ⟨.started, false⟩).length
    rw [List.length_set]
    exact hlt
  · intro i thread hthread
    rcases getElem?_move hthread with ⟨rfl, rfl⟩ | ⟨hne, hthread⟩
    · exact iff_of_false nofun (Nat.not_succ_le_self _)
    · rw [hmain.2 i thread hthread]
      omega
  · have hcalls := h.calls
    have hcalled : AddThread.called ⟨.unborn, shut⟩ = AddThread.called ⟨.started, false⟩ := rfl
    rw [hat] at hcalls
    exact hcalls.trans (congrArg (· + 0) (same_count hold hcalled).symm)
  · intro thread hmem hshut
    rcases List.mem_or_eq_of_mem_set hmem with hmem | rfl
    · exact h.shut thread hmem hshut
    · cases hshut
  · intro hundefined
    exact absurd hundefined (by show state.fault ≠ true; rw [hfault]; exact Bool.false_ne_true)
  · have hsection := hgoing.inside count _ hold
    exact hgoing.moved hold rfl hsection (fun _ _ => Iff.rfl) nofun nofun (.inl ⟨rfl, hwrote⟩)

theorem stepMain_addInv {next : Adding} (h : AddInv number threads state)
    (hfault : state.fault = false) (hstep : state.stepMain = some next) :
    AddInv number threads next := by
  have hmain := h.main
  unfold Adding.stepMain at hstep
  split at hstep
  · rename_i count hat
    split at hstep
    · rename_i hlt
      cases hstep
      exact h.create hfault hat hlt
    · rename_i hlt
      cases hstep
      rw [hat] at hmain
      refine h.mainMoves hfault ⟨?_, fun i thread _ hi => absurd hi (Nat.not_lt_zero _)⟩
        (by rw [hat]; rfl)
      intro thread hmem hunborn
      obtain ⟨i, hi⟩ := List.mem_iff_getElem?.mp hmem
      have hcount := (hmain.2 i thread hi).mp hunborn
      have hi' : i < state.threads.length := (List.getElem?_eq_some_iff.mp hi).1
      omega
  · rename_i count hat
    rw [hat] at hmain
    split at hstep
    · split at hstep
      · rename_i hended
        cases hstep
        refine h.mainMoves hfault ⟨hmain.1, ?_⟩ (by rw [hat]; rfl)
        intro i thread hthread hi
        rcases Nat.lt_succ_iff_lt_or_eq.mp hi with hlt | rfl
        · exact hmain.2 i thread hthread hlt
        · rw [hthread, Option.map_some, Option.some.injEq] at hended
          exact hended
      · cases hstep
    · rename_i hlt
      cases hstep
      refine h.callExit hfault ?_ (by rw [hat]; rfl) rfl
      intro thread hmem
      obtain ⟨i, hi⟩ := List.mem_iff_getElem?.mp hmem
      have hi' : i < state.threads.length := (List.getElem?_eq_some_iff.mp hi).1
      exact hmain.2 i thread hi (by omega)
  · cases hstep
  · cases hstep

theorem step_addInv {next : Adding} {event : AddEvent} (hroom : number + threads ≤ intMax)
    (h : AddInv number threads state) (hstep : step state event = some next) :
    AddInv number threads next := by
  unfold step at hstep
  split at hstep
  · cases hstep
  · rename_i hon
    rw [not_or] at hon
    have hfault := Bool.eq_false_iff.mpr hon.2
    cases event with
    | main => exact stepMain_addInv h hfault hstep
    | mainFails => exact failMain_addInv h hfault hstep
    | thread index => exact stepThread_addInv hroom h hfault hstep
    | threadFails index => exact failThread_addInv h hfault hstep
    | shut index => exact shutStream_addInv hroom h hfault hstep
    | finish =>
      dsimp only at hstep
      split at hstep
      · cases hstep
        have hgoing := h.going hfault
        exact ⟨h.length, h.value, h.main, h.calls, h.shut, h.cause,
          fun _ => ⟨hgoing.holder, hgoing.inside, hgoing.read, hgoing.printed⟩⟩
      · cases hstep

/-! ## Progress -/

/-- A thread that lives can go on, in front of the mutex when nobody holds it. -/
theorem stepThread_isSome (hold : state.threads[index]? = some old)
    (hlive : old.place.inSection = true ∨ old.place = .started ∨
      old.place = .opened ∧ state.held = none) :
    (state.stepThread index).isSome = true := by
  unfold Adding.stepThread
  rw [hold]
  dsimp only
  split
  · rfl
  · cases hplace : old.place with
    | unborn => simp [hplace, At.inSection, At.usesStream] at hlive
    | opened =>
      have hheld : state.held = none := by simpa [hplace, At.inSection, At.usesStream] using hlive
      simp [hheld]
    | locked =>
      dsimp only
      split <;> rfl
    | sought buf =>
      dsimp only
      split <;> rfl
    | ended => simp [hplace, At.inSection, At.usesStream] at hlive
    | exiting => simp [hplace, At.inSection, At.usesStream] at hlive
    | _ => rfl

/-- While `main` waits for a thread that has not ended, this one or the holder of the mutex
can go on. -/
theorem AddInv.threadEnabled (h : AddInv number threads state) (hfault : state.fault = false)
    (hexits : state.exits = 0) (hborn : ∀ thread ∈ state.threads, thread.place ≠ .unborn)
    (hlt : index < state.threads.length)
    (hlive : (state.threads[index]?.map AddThread.place) ≠ some .ended) :
    ∃ i, (state.stepThread i).isSome = true := by
  have hgoing := h.going hfault
  cases hheld : state.held with
  | some i =>
    have hi := List.getElem?_eq_getElem (hgoing.holder i hheld)
    exact ⟨i, stepThread_isSome hi (.inl ((hgoing.inside i _ hi).mpr hheld))⟩
  | none =>
    have hthread := List.getElem?_eq_getElem hlt
    have hmem := List.getElem_mem hlt
    have houtside := (hgoing.inside index _ hthread).not.mpr (by simp [hheld])
    have hnever := hborn _ hmem
    have hcalls := h.calls
    have hcalled : state.threads[index].called ≠ true := by
      intro hcalled
      have hpos := List.countP_pos_iff.mpr ⟨_, hmem, hcalled⟩
      omega
    rw [hthread, Option.map_some, ne_eq, Option.some.injEq] at hlive
    refine ⟨index, stepThread_isSome hthread ?_⟩
    cases hplace : state.threads[index].place with
    | started => exact .inr (.inl rfl)
    | opened => exact .inr (.inr ⟨rfl, hheld⟩)
    | unborn => exact absurd hplace hnever
    | ended => exact absurd hplace hlive
    | exiting => exact absurd (by rw [AddThread.called, hplace]; rfl) hcalled
    | _ =>
      rw [hplace] at houtside
      exact absurd rfl houtside

/-- While the process is not over, something can happen. -/
theorem AddInv.enabled (h : AddInv number threads state) (hfault : state.fault = false)
    (hfinished : state.finished = false) : ∃ event, (step state event).isSome = true := by
  have hon : ¬ (state.finished = true ∨ state.fault = true) := by simp [hfault, hfinished]
  rcases Nat.eq_zero_or_pos state.exits with hexits | hexits
  · have hmain := h.main
    have hcalls := h.calls
    cases hat : state.main with
    | creating count =>
      refine ⟨.main, ?_⟩
      unfold step
      rw [if_neg hon]
      simp only [Adding.stepMain, hat]
      split <;> rfl
    | joining count =>
      rw [hat] at hmain
      by_cases hend : count < state.threads.length →
          (state.threads[count]?.map AddThread.place) = some .ended
      · refine ⟨.main, ?_⟩
        unfold step
        rw [if_neg hon]
        simp only [Adding.stepMain, hat]
        split
        · rename_i hlt
          rw [if_pos (hend hlt)]
          rfl
        · rfl
      · obtain ⟨hlt, hlive⟩ := Classical.not_imp.mp hend
        obtain ⟨i, hi⟩ := h.threadEnabled hfault hexits hmain.1 hlt hlive
        exact ⟨.thread i, by unfold step; rw [if_neg hon]; exact hi⟩
    | _ =>
      rw [hat, MainAt.calls] at hcalls
      omega
  · refine ⟨.finish, ?_⟩
    unfold step
    rw [if_neg hon]
    dsimp only
    rw [if_pos hexits]
    rfl

/-! ### The steps that are left -/

/-- The steps that are left to a thread. -/
def At.left : At → Nat
  | .unborn => 8
  | .started => 7
  | .opened => 6
  | .locked => 5
  | .read _ => 4
  | .sought _ => 3
  | .printed _ => 2
  | .closed => 1
  | .ended => 0
  | .exiting => 0

/-- And to `exit` with its stream. -/
def AddThread.left (thread : AddThread) : Nat :=
  match thread.place with
  | .unborn => 8
  | place => (if thread.shut then 0 else 1) + place.left

/-- The steps that are left to `main`. -/
def MainAt.left (threads : Nat) : MainAt → Nat
  | .creating count => (threads - count) + threads + 2
  | .joining count => (threads - count) + 1
  | .exiting => 0
  | .ended => 0

/-- The steps that are left. -/
def Adding.left (state : Adding) : Nat :=
  if state.finished = true ∨ state.fault = true then 0
  else 1 + state.main.left state.threads.length + (state.threads.map AddThread.left).sum

theorem sum_left_move {all : List AddThread} (hold : all[index]? = some old) (new : AddThread) :
    ((all.set index new).map AddThread.left).sum + old.left =
      (all.map AddThread.left).sum + new.left := by
  induction all generalizing index with
  | nil => cases hold
  | cons thread rest ih =>
    cases index with
    | zero =>
      cases hold
      simp only [List.set_cons_zero, List.map_cons, List.sum_cons]
      omega
    | succ index =>
      have htail := ih hold
      simp only [List.set_cons_succ, List.map_cons, List.sum_cons]
      omega

theorem left_le (state : Adding) :
    state.left ≤ 1 + state.main.left state.threads.length +
      (state.threads.map AddThread.left).sum := by
  unfold Adding.left
  split
  · exact Nat.zero_le _
  · exact le_rfl

section Left

variable (hon : ¬ (state.finished = true ∨ state.fault = true))
include hon

theorem left_of_on : state.left = 1 + state.main.left state.threads.length +
    (state.threads.map AddThread.left).sum := if_neg hon

theorem left_stopped {after : Adding} (h : after.finished = true ∨ after.fault = true) :
    after.left < state.left := by
  rw [left_of_on hon, Adding.left, if_pos h]
  omega

/-- A thread has made a step. -/
theorem left_moved {after : Adding} (hold : state.threads[index]? = some old)
    (hthreads : after.threads = state.threads.set index new) (hmain : after.main = state.main)
    (hless : new.left < old.left) : after.left < state.left := by
  have hle := left_le after
  have hsum := sum_left_move hold new
  have hstate := left_of_on hon
  rw [hthreads, hmain, List.length_set] at hle
  omega

/-- `main` has made a step. -/
theorem left_main {after : Adding} (hthreads : after.threads = state.threads)
    (hless : after.main.left state.threads.length < state.main.left state.threads.length) :
    after.left < state.left := by
  have hle := left_le after
  have hstate := left_of_on hon
  rw [hthreads] at hle
  omega

theorem stepThread_left {next : Adding} (hstep : state.stepThread index = some next) :
    next.left < state.left := by
  unfold Adding.stepThread at hstep
  cases hold : state.threads[index]? with
  | none =>
    rw [hold] at hstep
    cases hstep
  | some thread =>
    obtain ⟨place, shut⟩ := thread
    rw [hold] at hstep
    dsimp only at hstep
    split at hstep
    · cases hstep
      exact left_stopped hon (.inr rfl)
    cases place with
    | opened =>
      dsimp only at hstep
      split at hstep
      · cases hstep
        exact left_moved hon hold rfl rfl (Nat.lt_succ_self _)
      · cases hstep
    | locked =>
      dsimp only at hstep
      split at hstep
      · cases hstep
        exact left_stopped hon (.inr rfl)
      · cases hstep
        exact left_moved hon hold rfl rfl (Nat.lt_succ_self _)
    | sought buf =>
      dsimp only at hstep
      split at hstep
      · cases hstep
        exact left_stopped hon (.inr rfl)
      · cases hstep
        exact left_moved hon hold rfl rfl (Nat.lt_succ_self _)
    | unborn => cases hstep
    | ended => cases hstep
    | exiting => cases hstep
    | _ =>
      cases hstep
      exact left_moved hon hold rfl rfl (Nat.lt_succ_self _)

theorem shutStream_left {next : Adding} (hstep : state.shutStream index = some next) :
    next.left < state.left := by
  unfold Adding.shutStream at hstep
  split at hstep
  · cases hstep
  · rename_i thread hold
    split at hstep
    · rename_i hopen
      cases hstep
      obtain ⟨place, shut⟩ := thread
      obtain ⟨-, hstream, rfl⟩ := hopen
      refine left_moved hon hold rfl rfl ?_
      cases place with
      | unborn => cases hstream
      | _ => exact Nat.add_lt_add_right Nat.zero_lt_one _
    · cases hstep

theorem failThread_left {next : Adding} (hstep : state.failThread index = some next) :
    next.left < state.left := by
  unfold Adding.failThread at hstep
  split at hstep
  · rename_i shut hold
    cases hstep
    exact left_moved hon hold rfl rfl (Nat.add_lt_add_left (Nat.succ_pos 6) _)
  · cases hstep

theorem failMain_left {next : Adding} (hstep : state.failMain = some next) :
    next.left < state.left := by
  unfold Adding.failMain at hstep
  split at hstep
  · rename_i count hat
    split at hstep
    · cases hstep
      refine left_main hon rfl ?_
      rw [hat]
      exact Nat.succ_pos _
    · cases hstep
  · cases hstep

theorem stepMain_left {next : Adding} (h : AddInv number threads state)
    (hstep : state.stepMain = some next) : next.left < state.left := by
  unfold Adding.stepMain at hstep
  split at hstep
  · rename_i count hat
    split at hstep
    · rename_i hlt
      cases hstep
      obtain ⟨shut, hold⟩ := h.unborn hat hlt
      refine (left_le _).trans_lt ?_
      have hlength : (state.move count ⟨.started, false⟩).threads.length = state.threads.length :=
        List.length_set ..
      have hsum : ((state.move count ⟨.started, false⟩).threads.map AddThread.left).sum + 8 =
          (state.threads.map AddThread.left).sum + 8 := sum_left_move hold ⟨.started, false⟩
      have hstate := left_of_on hon
      rw [hat] at hstate
      simp only [hlength, MainAt.left] at hstate ⊢
      omega
    · cases hstep
      refine left_main hon rfl ?_
      rw [hat]
      simp only [MainAt.left]
      omega
  · rename_i count hat
    split at hstep
    · split at hstep
      · cases hstep
        refine left_main hon rfl ?_
        rw [hat]
        simp only [MainAt.left]
        omega
      · cases hstep
    · cases hstep
      refine left_main hon rfl ?_
      rw [hat]
      exact Nat.succ_pos _
  · cases hstep
  · cases hstep

end Left

/-- Every step is one of those that are left. -/
theorem step_left {next : Adding} {event : AddEvent} (h : AddInv number threads state)
    (hstep : step state event = some next) : next.left < state.left := by
  unfold step at hstep
  split at hstep
  · cases hstep
  · rename_i hon
    cases event with
    | main => exact stepMain_left hon h hstep
    | mainFails => exact failMain_left hon hstep
    | thread index => exact stepThread_left hon hstep
    | threadFails index => exact failThread_left hon hstep
    | shut index => exact shutStream_left hon hstep
    | finish =>
      dsimp only at hstep
      split at hstep
      · cases hstep
        exact left_stopped hon (.inl rfl)
      · cases hstep

/-! ### The calls of `exit` -/

/-- A call fails. -/
def AddEvent.fails : AddEvent → Bool
  | .mainFails => true
  | .threadFails _ => true
  | _ => false

/-- `main` has come to its own `exit`. -/
def Adding.returned (state : Adding) : Nat := if state.main = .ended then 1 else 0

theorem returned_of_ne (h : state.main ≠ .ended) : state.returned = 0 := if_neg h

/-- A thread, or `exit`, moves beside `main`. -/
theorem stepThread_calls {next : Adding} (hstep : state.stepThread index = some next) :
    next.exits = state.exits ∧ next.main = state.main := by
  unfold Adding.stepThread at hstep
  split at hstep
  · cases hstep
  · split at hstep
    · cases hstep
      exact ⟨rfl, rfl⟩
    · split at hstep
      case h_2 | h_3 | h_5 => split at hstep <;> cases hstep <;> exact ⟨rfl, rfl⟩
      all_goals
        cases hstep
        try exact ⟨rfl, rfl⟩

theorem stepMain_calls {next : Adding} (hstep : state.stepMain = some next) :
    state.main ≠ .ended ∧ next.exits = state.exits + next.returned := by
  unfold Adding.stepMain at hstep
  split at hstep
  · rename_i count hat
    refine ⟨by rw [hat]; nofun, ?_⟩
    split at hstep
    · cases hstep
      rfl
    · cases hstep
      rfl
  · rename_i count hat
    refine ⟨by rw [hat]; nofun, ?_⟩
    split at hstep
    · split at hstep
      · cases hstep
        rfl
      · cases hstep
    · cases hstep
      rfl
  · cases hstep
  · cases hstep

/-- Who calls `exit`: `main` at its end, and whoever has a failing call. -/
theorem step_calls {next : Adding} {event : AddEvent} (hstep : step state event = some next) :
    next.exits + state.returned =
      state.exits + (if event.fails = true then 1 else 0) + next.returned := by
  unfold step at hstep
  split at hstep
  · cases hstep
  · cases event with
    | main =>
      obtain ⟨hmain, hexits⟩ := stepMain_calls hstep
      rw [hexits, returned_of_ne hmain]
      rfl
    | mainFails =>
      dsimp only [Adding.failMain] at hstep
      split at hstep
      · rename_i count hat
        split at hstep
        · cases hstep
          rw [returned_of_ne (by rw [hat]; nofun)]
          rfl
        · cases hstep
      · cases hstep
    | thread index =>
      obtain ⟨hexits, hmain⟩ := stepThread_calls hstep
      rw [hexits, Adding.returned, Adding.returned, hmain]
      rfl
    | threadFails index =>
      dsimp only [Adding.failThread] at hstep
      split at hstep
      · cases hstep
        rfl
      · cases hstep
    | shut index =>
      dsimp only [Adding.shutStream] at hstep
      split at hstep
      · cases hstep
      · split at hstep
        · cases hstep
          rfl
        · cases hstep
    | finish =>
      dsimp only at hstep
      split at hstep
      · cases hstep
        rfl
      · cases hstep

/-! ## Every run -/

/-- What the file is worth behind a run. -/
structure Counted (number : Int) (threads : Nat) (state : Adding) : Prop where
  /-- Each thread that wrote added one. -/
  value : numberOf state.file = some (number + state.threads.countP AddThread.wrote)
  /-- At most one thread is between the lock and the unlock. -/
  alone : state.fault = false → ∀ (i j : Nat) (first second : AddThread),
    state.threads[i]? = some first → state.threads[j]? = some second →
    first.place.inSection = true → second.place.inSection = true → i = j
  /-- All have written when `main` has joined them. -/
  all : state.main = .ended → numberOf state.file = some (number + threads)
  /-- Nobody waits for ever. -/
  goesOn : state.fault = false → state.finished = false →
    ∃ event, (step state event).isSome = true
  /-- What is undefined is a second call of `exit`, or a call on a stream that it closed. -/
  cause : state.fault = true → 2 ≤ state.exits ∨
    ∃ thread ∈ state.threads, thread.shut = true ∧ thread.place.usesStream = true

theorem AddInv.counted (h : AddInv number threads state) : Counted number threads state where
  value := h.value
  alone := by
    intro hfault i j first second hfirst hsecond hin hin'
    have hi := ((h.going hfault).inside i first hfirst).mp hin
    have hj := ((h.going hfault).inside j second hsecond).mp hin'
    rw [hi, Option.some.injEq] at hj
    exact hj
  all := by
    intro hmain
    have hended := h.main
    rw [hmain] at hended
    have hcount : state.threads.countP AddThread.wrote = state.threads.length := by
      rw [List.countP_eq_length]
      intro thread hmem
      rw [AddThread.wrote, hended thread hmem]
    rw [h.value, hcount, h.length]
  goesOn := h.enabled
  cause := h.cause

/-- Where `exit` was called by `main` alone, at its end, nothing was undefined. -/
theorem AddInv.defined (h : AddInv number threads state) (hexits : state.exits = state.returned) :
    state.fault = false := by
  rw [Bool.eq_false_iff]
  intro hfault
  have hmain := h.main
  unfold Adding.returned at hexits
  split at hexits
  · rename_i hended
    rw [hended] at hmain
    rcases h.cause hfault with htwo | ⟨thread, hmem, -, huses⟩
    · omega
    · rw [hmain thread hmem] at huses
      cases huses
  · rcases h.cause hfault with htwo | ⟨thread, hmem, hshut, -⟩
    · omega
    · have hpos := h.shut thread hmem hshut
      omega

end Steps

theorem addInv_start {number : Int} {file : Bytes} (hnumber : numberOf file = some number)
    (threads : Nat) : AddInv number threads (start file threads) := by
  have hthread : ∀ thread ∈ (start file threads).threads, thread = ⟨.unborn, false⟩ :=
    fun thread h => List.eq_of_mem_replicate h
  have hat : ∀ (i : Nat) (thread : AddThread), (start file threads).threads[i]? = some thread →
      thread = ⟨.unborn, false⟩ := fun i thread h => hthread thread (List.mem_of_getElem? h)
  refine ⟨List.length_replicate, ?_, ⟨Nat.zero_le _, ?_⟩, ?_, ?_, nofun, fun _ => ⟨nofun, ?_, ?_, ?_⟩⟩
  · simp [start, List.countP_replicate, AddThread.wrote, hnumber]
  · intro i thread hi
    rw [hat i thread hi]
    exact ⟨fun _ => Nat.zero_le i, fun _ => rfl⟩
  · simp [start, List.countP_replicate, AddThread.called, MainAt.calls]
  · intro thread hmem hshut
    rw [hthread thread hmem] at hshut
    cases hshut
  · intro i thread hi
    rw [hat i thread hi]
    exact ⟨nofun, nofun⟩
  · intro i thread buf hi hplace
    rw [hat i thread hi] at hplace
    rcases hplace with hplace | hplace <;> cases hplace
  · intro i text hi
    cases hat i _ hi

theorem left_start (file : Bytes) (threads : Nat) :
    (start file threads).left = 10 * threads + 3 := by
  simp [Adding.left, start, MainAt.left, AddThread.left]
  omega

/-- No update is lost.  Whatever the threads do in between, the file holds the first number
with one for each thread that wrote, and with one for each thread when `main` ends; at most
one thread is at the file, the process goes on until it is over, after no more than ten
steps for a thread and three of its own.  `exit` is called by `main` at its end and where a
call fails, and without a failing call nothing is undefined. -/
theorem addFile_counts {file : Bytes} {number : Int} (hnumber : numberOf file = some number)
    {threads : Nat} (hroom : number + threads ≤ intMax) (events : List AddEvent) :
    let past := history step (start file threads) events
    let state := run step (start file threads) events
    Counted number threads state ∧
      state.exits = past.countP AddEvent.fails + state.returned ∧
      (past.countP AddEvent.fails = 0 → state.fault = false) ∧
      past.length ≤ 10 * threads + 3 := by
  intro past state
  have hstart := addInv_start hnumber threads
  have hinv : AddInv number threads state :=
    run_induction step (fun _ _ _ h hstep => step_addInv hroom h hstep) events hstart
  have hexits : state.exits = past.countP AddEvent.fails + state.returned := by
    refine @history_induction Adding AddEvent step
      (fun past state => state.exits = past.countP AddEvent.fails + state.returned)
      ?_ events [] (start file threads) rfl
    intro past state event next hpast hstep
    have hcalls := step_calls hstep
    rw [List.countP_append, List.countP_singleton]
    omega
  have hbound : past.length + state.left ≤ (start file threads).left :=
    (meets_true events _).history_length_le Adding.left
      (fun _ _ _ h _ hstep => ⟨step_addInv hroom h hstep, step_left h hstep⟩) hstart
  rw [left_start] at hbound
  refine ⟨hinv.counted, hexits, fun hnone => hinv.defined ?_, by omega⟩
  rw [hexits, hnone, Nat.zero_add]

/-- Both threads open the file before one of them writes; the other one cannot lock. -/
def overlapping : List AddEvent :=
  [.main, .main, .thread 0, .thread 1, .thread 0, .thread 1, .thread 0, .thread 0, .thread 0,
    .thread 0]

theorem addFile_counts_two :
    (run step (start (ascii "9\n") 2) overlapping).file = ascii "10\n" ∧
      Counted 9 2 (run step (start (ascii "9\n") 2) overlapping) :=
  ⟨by decide +kernel, (addFile_counts (by decide +kernel) (by decide) overlapping).1⟩

/-- The second thread fails to open the file while the first one holds its number back:
`exit` writes the number, and the first thread closes a stream that is closed. -/
example :
    let state := run step (start (ascii "9\n") 2)
      [.main, .main, .thread 0, .thread 0, .thread 0, .thread 0, .thread 0, .threadFails 1,
        .shut 0, .thread 0]
    state.file = ascii "10\n" ∧ state.fault = true := by decide +kernel

end LearnApue.Para.AddFile
