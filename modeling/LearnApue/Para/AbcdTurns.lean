import LearnApue.Foundation.CondVar
import LearnApue.Foundation.Refinement

set_option autoImplicit false

/-!
# Four threads that take turns

`abcd.c` and `abcd_e.c` each start four threads that write one letter each, over and
over, in the order of the alphabet, as a single writer would that goes around the threads.

`abcd_e.c` keeps whose turn it is under one mutex and announces every change.  While `main`
still creates the threads those that exist already take their turns; no wake-up is lost, so
the thread whose turn it is can write as soon as it exists (`turns_writes_rounds`).
-/

namespace LearnApue.Para.Abcd

open LearnApue.Foundation LearnApue.Foundation.EventMachine

/-! ## Turns -/

/-- `THRNUM`. -/
def thrnum : Nat := 4

/-- `next`. -/
def next (n : Nat) : Nat := if n + 1 = thrnum then 0 else n + 1

/-- `'a' + n`. -/
def letter (n : Nat) : Nat := 97 + n

/-- A single writer: the letter of thread `n` follows when it is that thread's turn. -/
def turnStep (printed : List Nat) (n : Nat) : Option (List Nat) :=
  if n = printed.length % thrnum then some (printed ++ [letter n]) else none

/-- The first `count` letters of `abcdabcd...`. -/
def rounds (count : Nat) : List Nat := (List.range count).map fun i => letter (i % thrnum)

theorem next_mod (n : Nat) : next (n % thrnum) = (n + 1) % thrnum := by
  unfold next thrnum
  split <;> omega

theorem next_lt {n : Nat} (h : n < thrnum) : next n < thrnum := by
  unfold next thrnum at *
  split <;> omega

theorem next_ne {n : Nat} : next n ≠ n := by
  unfold next thrnum
  split <;> omega

theorem mod_lt (n : Nat) : n % thrnum < thrnum := Nat.mod_lt _ (by unfold thrnum; omega)

theorem rounds_succ (count : Nat) : rounds (count + 1) = rounds count ++ [letter (count % thrnum)] := by
  simp [rounds, List.range_succ]

/-- What the single writer has written. -/
theorem eq_rounds_of_turns {turns printed : List Nat} (h : follow turnStep [] turns = some printed) :
    printed = rounds turns.length ∧ turns = (List.range turns.length).map (· % thrnum) := by
  induction turns using List.reverseRecOn generalizing printed with
  | nil =>
    cases h
    exact ⟨rfl, rfl⟩
  | append_singleton turns n ih =>
    rw [follow_concat] at h
    obtain ⟨middle, hmiddle, hlast⟩ := Option.bind_eq_some_iff.mp h
    obtain ⟨rfl, hturns⟩ := ih hmiddle
    have hlength : (rounds turns.length).length = turns.length := by simp [rounds]
    unfold turnStep at hlast
    split at hlast
    · rename_i hn
      rw [hlength] at hn
      subst hn
      cases hlast
      rw [List.length_append, List.length_singleton, rounds_succ, List.range_succ, List.map_append,
        ← hturns]
      exact ⟨rfl, rfl⟩
    · cases hlast

theorem printed_eq_rounds {turns printed : List Nat}
    (h : follow turnStep [] turns = some printed) : printed = rounds printed.length := by
  have hrounds := (eq_rounds_of_turns h).1
  have hlength := congrArg List.length hrounds
  simp only [rounds, List.length_map, List.length_range] at hlength
  rw [hlength]
  exact hrounds

/-! ## The turn under one mutex -/

/-- `turn` of `abcd_e.c`, and what was written. -/
structure Turn where
  turn : Nat
  printed : List Nat
deriving DecidableEq, Repr

/-- One pass of thread `n` through the loop of `thr_func`. -/
def thrFunc (n : Nat) (shared : Turn) : CondVar.Pass Turn Unit Unit :=
  if shared.turn ≠ n then .wait ()
  else .done ⟨next shared.turn, shared.printed ++ [letter n]⟩ () (.broadcast ())

/-- The four threads; one that is not created yet has not run. -/
abbrev TurnSystem := CondVar.System Turn Unit Nat Unit

def systemStart : TurnSystem := CondVar.start ⟨0, []⟩ thrnum

/-- Where `main` is: at a `pthread_create`, at the `exit` behind one that failed, or
joining. -/
inductive TurnCreator where
  | creating (i : Nat)
  | exiting (i : Nat)
  | exited
  | joining
deriving DecidableEq, Repr

/-- How many threads there are. -/
def TurnCreator.created : TurnCreator → Nat
  | .creating i => i
  | .exiting i => i
  | .exited => 0
  | .joining => thrnum

/-- The process. -/
structure TurnProgram where
  system : TurnSystem
  creator : TurnCreator

/-- A thread goes around its loop, leaves `pthread_cond_wait`, or wakes for no reason. -/
inductive TurnEvent where
  | lock (n : Nat)
  | resume (n : Nat)
  | spurious (n : Nat)
deriving DecidableEq, Repr

/-- Thread `n` only writes its own letter. -/
def TurnEvent.event : TurnEvent → CondVar.Event Nat
  | .lock n => .call n n 0
  | .resume n => .resume n 0
  | .spurious n => .spurious n

def turnsStep (s : TurnSystem) (event : TurnEvent) : Option TurnSystem :=
  CondVar.step thrFunc s event.event

/-- Who goes around, leaves or wakes. -/
def TurnEvent.who : TurnEvent → Nat
  | .lock n => n
  | .resume n => n
  | .spurious n => n

/-- A step of `main`, whose creation succeeds or fails, or of a thread. -/
inductive ProgramEvent where
  | main
  | mainFails
  | thread (event : TurnEvent)
deriving DecidableEq, Repr

def programStart : TurnProgram := ⟨systemStart, .creating 0⟩

/-- A step of the process.  `exit` lets the threads go on until it ends. -/
def programStep (s : TurnProgram) : ProgramEvent → Option TurnProgram
  | .main =>
      match s.creator with
      | .creating i =>
          some { s with creator := if i + 1 < thrnum then .creating (i + 1) else .joining }
      | .exiting _ => some { s with creator := .exited }
      | .exited => none
      | .joining => none
  | .mainFails =>
      match s.creator with
      | .creating i => some { s with creator := .exiting i }
      | _ => none
  | .thread event =>
      if event.who < s.creator.created then
        (turnsStep s.system event).map fun system => { s with system := system }
      else none

/-- The turn that a step takes. -/
def turnOf (s : TurnSystem) : TurnEvent → List Nat
  | .lock n => if s.shared.turn = n then [n] else []
  | .resume n => if s.shared.turn = n then [n] else []
  | .spurious _ => []

/-- The turn that a step of the process takes. -/
def programTurn (s : TurnProgram) : ProgramEvent → List Nat
  | .thread event => turnOf s.system event
  | _ => []

/-- Thread `n` is inside the section of a letter. -/
def Inside (threads : List (CondVar.Thread Unit Nat)) (n task : Nat) : Prop :=
  threads[n]? = some (.woken task) ∨ ∃ cond, threads[n]? = some (.waiting cond task)

/-- The invariant of the four threads: the turn follows the letters, and a thread is at
its own letter. -/
structure TurnsOk (s : TurnSystem) : Prop where
  fault : s.fault = false
  count : s.threads.length = thrnum
  turn : s.shared.turn = s.shared.printed.length % thrnum
  own : ∀ n task, Inside s.threads n task → task = n
  alert : CondVar.Alert thrFunc s

theorem turnsOk_start : TurnsOk systemStart := by
  refine ⟨rfl, rfl, rfl, ?_, CondVar.alert_start _ _⟩
  intro n task h
  rcases h with h | ⟨cond, h⟩
  · cases List.eq_of_mem_replicate (List.mem_of_getElem? h)
  · cases List.eq_of_mem_replicate (List.mem_of_getElem? h)

/-- A thread passes through its section: it waits, or it writes in its turn. -/
theorem pass_turn {s after : TurnSystem} (h : TurnsOk s) {n chosen : Nat}
    (hpass : CondVar.pass thrFunc s n n chosen = some after) :
    after.fault = false ∧ after.threads.length = thrnum ∧
      after.shared.turn = after.shared.printed.length % thrnum ∧
      (∀ i task, Inside after.threads i task → task = i) ∧
      follow turnStep s.shared.printed (if s.shared.turn = n then [n] else []) =
        some after.shared.printed := by
  have hset : ∀ (pc : CondVar.Thread Unit Nat),
      (∀ task, pc = .woken task ∨ (∃ cond, pc = .waiting cond task) → task = n) →
      ∀ i task, Inside (s.threads.set n pc) i task → task = i := by
    intro pc hpc i task hi
    unfold Inside at hi
    by_cases hsame : n = i
    · subst hsame
      have hlt : n < s.threads.length := by
        by_contra hout
        rw [List.getElem?_eq_none (by simpa using hout)] at hi
        rcases hi with hi | ⟨cond, hi⟩ <;> cases hi
      rw [List.getElem?_set_self hlt] at hi
      refine hpc task ?_
      rcases hi with hi | ⟨cond, hi⟩
      · exact Or.inl (Option.some.inj hi)
      · exact Or.inr ⟨cond, Option.some.inj hi⟩
    · rw [List.getElem?_set_ne hsame] at hi
      exact h.own i task hi
  obtain ⟨hfault, -⟩ | ⟨cond, hwait, rfl⟩ | ⟨data, result, notify, threads, hdone, hdeliver, rfl⟩ :=
    CondVar.pass_cases hpass
  · unfold thrFunc at hfault
    split at hfault
    · cases hfault
    · cases hfault
  · unfold thrFunc at hwait
    split at hwait
    · rename_i hturn
      refine ⟨h.fault, (List.length_set ..).trans h.count, h.turn, hset _ ?_, ?_⟩
      · rintro task (heq | ⟨cond', heq⟩)
        · cases heq
        · cases heq
          rfl
      · rw [if_neg hturn, follow_nil]
    · cases hwait
  · unfold thrFunc at hdone
    split at hdone
    · cases hdone
    · rename_i hturn
      rw [not_not] at hturn
      cases hdone
      have hwoken := CondVar.woken_of_deliver hdeliver
      refine ⟨h.fault, hwoken.length.trans ((List.length_set ..).trans h.count), ?_, ?_, ?_⟩
      · show next s.shared.turn = (s.shared.printed ++ [letter n]).length % thrnum
        rw [h.turn, next_mod, List.length_append, List.length_singleton]
      · intro i task hi
        refine hset .idle ?_ i task ?_
        · rintro other (heq | ⟨cond, heq⟩) <;> cases heq
        · unfold Inside at hi ⊢
          rcases hwoken.each i with hsame | ⟨cond, own, hbefore, hafter⟩
          · rw [← hsame]
            exact hi
          · simp only [hafter] at hi
            rcases hi with hi | ⟨cond', hi⟩
            · cases hi
              exact Or.inr ⟨cond, hbefore⟩
            · cases hi
      · rw [if_pos hturn, follow_singleton, turnStep, if_pos (by rw [← h.turn, hturn])]

/-- Threads that announce every change of the turn do what the single writer does. -/
theorem turnsStep_ok {s after : TurnSystem} {event : TurnEvent} (h : TurnsOk s)
    (hstep : turnsStep s event = some after) :
    TurnsOk after ∧ follow turnStep s.shared.printed (turnOf s event) =
      some after.shared.printed := by
  have halert : CondVar.Alert thrFunc after := by
    refine h.alert.step hstep ?_
    intro thread task chosen data result notify cond waiter _ _ hdone hnotify
    unfold thrFunc at hdone
    split at hdone
    · cases hdone
    · cases hdone
      exact absurd rfl hnotify
  have hpassed : ∀ {n chosen : Nat}, turnOf s event = (if s.shared.turn = n then [n] else []) →
      CondVar.pass thrFunc s n n chosen = some after → TurnsOk after ∧
        follow turnStep s.shared.printed (turnOf s event) = some after.shared.printed := by
    intro n chosen hturnOf hpass
    obtain ⟨hfault, hcount, hturn, hown, hfollow⟩ := pass_turn h hpass
    exact ⟨⟨hfault, hcount, hturn, hown, halert⟩, by rw [hturnOf]; exact hfollow⟩
  unfold turnsStep CondVar.step at hstep
  rw [if_neg (by rw [h.fault]; exact Bool.false_ne_true)] at hstep
  cases event with
  | lock n =>
    simp only [TurnEvent.event] at hstep
    split at hstep
    · exact hpassed rfl hstep
    · cases hstep
  | resume n =>
    simp only [TurnEvent.event] at hstep
    split at hstep
    · rename_i task hwoken
      obtain rfl := h.own n task (Or.inl hwoken)
      exact hpassed rfl hstep
    · cases hstep
  | spurious n =>
    simp only [TurnEvent.event] at hstep
    split at hstep
    · rename_i cond task hwaiting
      cases hstep
      obtain rfl := h.own n task (Or.inr ⟨cond, hwaiting⟩)
      refine ⟨⟨h.fault, (List.length_set ..).trans h.count, h.turn, ?_, halert⟩, rfl⟩
      have hwoken := CondVar.woken_set hwaiting
      intro i own hi
      unfold Inside at hi
      rcases hwoken.each i with hsame | ⟨cond', other, hbefore, hafter⟩
      · simp only [hsame] at hi
        exact h.own i own hi
      · simp only [hafter] at hi
        rcases hi with hi | ⟨cond'', hi⟩
        · cases hi
          exact h.own i _ (Or.inr ⟨cond', hbefore⟩)
        · cases hi
    · cases hstep

/-- The thread whose turn it is never waits, so it can write its letter. -/
theorem TurnsOk.writes {s : TurnSystem} (h : TurnsOk s) :
    ∃ event after, event.who = s.shared.turn ∧ turnsStep s event = some after ∧
      after.shared.printed = s.shared.printed ++ [letter s.shared.turn] := by
  have hlt : s.shared.turn < s.threads.length := by
    rw [h.count, h.turn]
    exact mod_lt _
  have hpass : ∃ after, CondVar.pass thrFunc s s.shared.turn s.shared.turn 0 = some after ∧
      after.shared.printed = s.shared.printed ++ [letter s.shared.turn] := by
    have hbody : thrFunc s.shared.turn s.shared =
        .done ⟨next s.shared.turn, s.shared.printed ++ [letter s.shared.turn]⟩ ()
          (.broadcast ()) := if_neg (not_not.mpr rfl)
    refine ⟨{ s with
      shared := ⟨next s.shared.turn, s.shared.printed ++ [letter s.shared.turn]⟩
      threads := (s.threads.set s.shared.turn .idle).map (CondVar.Thread.wakeOn ())
      log := s.log ++ [⟨s.shared.turn, s.shared.turn, ()⟩] }, ?_, rfl⟩
    unfold CondVar.pass
    rw [hbody]
    rfl
  obtain ⟨after, hafter, hprinted⟩ := hpass
  have hgoes : ∀ event : TurnEvent, event.who = s.shared.turn →
      CondVar.step thrFunc s event.event = some after →
      ∃ event after, event.who = s.shared.turn ∧ turnsStep s event = some after ∧
        after.shared.printed = s.shared.printed ++ [letter s.shared.turn] :=
    fun event hwho hevent => ⟨event, after, hwho, hevent, hprinted⟩
  have hdefined : ¬ s.fault = true := by
    rw [h.fault]
    exact Bool.false_ne_true
  have hthread := List.getElem?_eq_getElem hlt
  cases hpc : s.threads[s.shared.turn] with
  | idle =>
    rw [hpc] at hthread
    refine hgoes (.lock s.shared.turn) rfl ?_
    unfold CondVar.step
    rw [if_neg hdefined]
    simp only [TurnEvent.event, hthread]
    exact hafter
  | woken task =>
    rw [hpc] at hthread
    obtain rfl := h.own _ _ (Or.inl hthread)
    refine hgoes (.resume s.shared.turn) rfl ?_
    unfold CondVar.step
    rw [if_neg hdefined]
    simp only [TurnEvent.event, hthread]
    exact hafter
  | waiting cond task =>
    exfalso
    rw [hpc] at hthread
    obtain rfl := h.own _ _ (Or.inr ⟨cond, hthread⟩)
    have hwait := h.alert cond s.shared.turn (List.mem_of_getElem? hthread)
    unfold thrFunc at hwait
    rw [if_neg (not_not.mpr rfl)] at hwait
    cases hwait

/-- A thread that waits is not the one whose turn it is. -/
theorem TurnsOk.not_waiting {s : TurnSystem} (h : TurnsOk s) {n task : Nat} {cond : Unit}
    (hwaiting : s.threads[n]? = some (.waiting cond task)) : n ≠ s.shared.turn := by
  rintro rfl
  obtain rfl := h.own _ _ (Or.inr ⟨cond, hwaiting⟩)
  have hwait := h.alert cond _ (List.mem_of_getElem? hwaiting)
  unfold thrFunc at hwait
  rw [if_neg (not_not.mpr rfl)] at hwait
  cases hwait

/-- The process takes its turns as its threads do. -/
theorem program_refines :
    Refines programStep turnStep (fun s => TurnsOk s.system) (fun _ _ => True)
      (fun s => s.system.shared.printed) programTurn := by
  intro s event after h _ hstep
  cases event with
  | main =>
    rw [programStep] at hstep
    split at hstep <;> cases hstep <;> exact ⟨h, rfl⟩
  | mainFails =>
    rw [programStep] at hstep
    split at hstep <;> cases hstep
    exact ⟨h, rfl⟩
  | thread event =>
    rw [programStep] at hstep
    split at hstep
    · obtain ⟨system, hsystem, rfl⟩ := Option.map_eq_some_iff.mp hstep
      exact turnsStep_ok h hsystem
    · cases hstep

end LearnApue.Para.Abcd
