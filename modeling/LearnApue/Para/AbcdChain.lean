import LearnApue.Para.AbcdTurns

set_option autoImplicit false

/-!
# The chain of mutexes of `abcd.c`

`main` locks all mutexes and creates the threads, each of which waits for its own; then it
unlocks the first.  From then on one baton goes around: a thread takes it with its mutex,
writes its letter and unlocks the mutex of the next thread.

That thread has not locked the mutex, so what the standard says of the program depends on
`anyOwner`: whether an unlock by another thread than the owner is defined, as it is for the
default mutex of the implementation the program is written for.  Where it is, the program
writes `abcdabcd...` as long as it runs; where it is not, nothing is defined from the first
time on that a thread passes the baton (`chain_writes_rounds`).
-/

namespace LearnApue.Para.Abcd

open LearnApue.Foundation LearnApue.Foundation.EventMachine

/-! ## The transcription -/

/-- A mutex: not initialised yet, unlocked, or locked by a thread or by `main`. -/
inductive Mutex where
  | raw
  | unlocked
  | locked (owner : Option Nat)
deriving DecidableEq, Repr

/-- Where `main` is: at `pthread_mutex_init`, `pthread_mutex_lock` or `pthread_create` of
its loop, at the `exit` behind a creation that failed, at the `pthread_mutex_unlock` behind
the loop, or joining. -/
inductive Creator where
  | initing (i : Nat)
  | locking (i : Nat)
  | creating (i : Nat)
  | exiting
  | exited
  | releasing
  | joining
deriving DecidableEq, Repr

/-- Where a thread is. -/
inductive ThreadPc where
  | absent
  | locking
  | writing
  | unlocking
deriving DecidableEq, Repr

/-- `mut` and where everybody is, with the letters that `write` was called for. -/
structure Chain where
  mutexes : Nat → Mutex
  creator : Creator
  threads : Nat → ThreadPc
  printed : List Nat
  fault : Bool

def chainStart : Chain := ⟨fun _ => .raw, .initing 0, fun _ => .absent, [], false⟩

namespace Chain

def setMutex (s : Chain) (i : Nat) (mutex : Mutex) : Chain :=
  { s with mutexes := Function.update s.mutexes i mutex }

def setThread (s : Chain) (n : Nat) (pc : ThreadPc) : Chain :=
  { s with threads := Function.update s.threads n pc }

/-- `pthread_mutex_lock`: it blocks on a locked mutex and is undefined on a raw one. -/
def lock (s : Chain) (caller : Option Nat) (i : Nat) (after : Chain → Chain) : Option Chain :=
  match s.mutexes i with
  | .raw => some { s with fault := true }
  | .unlocked => some (after (s.setMutex i (.locked caller)))
  | .locked _ => none

/-- `pthread_mutex_unlock`: it is undefined on a mutex that is not locked, and on one that
another thread has locked where only the owner may unlock it. -/
def unlock (anyOwner : Bool) (s : Chain) (caller : Option Nat) (i : Nat) (after : Chain → Chain) :
    Chain :=
  match s.mutexes i with
  | .locked owner =>
      if anyOwner = true ∨ owner = caller then after (s.setMutex i .unlocked)
      else { s with fault := true }
  | _ => { s with fault := true }

/-- The next call of `main`; a creation succeeds. -/
def main (anyOwner : Bool) (s : Chain) : Option Chain :=
  match s.creator with
  | .initing i =>
      some (if s.mutexes i = .raw then { s.setMutex i .unlocked with creator := .locking i }
        else { s with fault := true })
  | .locking i => s.lock none i fun locked => { locked with creator := .creating i }
  | .creating i =>
      some { s.setThread i .locking with
        creator := if i + 1 < thrnum then .initing (i + 1) else .releasing }
  | .exiting => some { s with creator := .exited }
  | .releasing => some (s.unlock anyOwner none 0 fun released => { released with creator := .joining })
  | .exited => none
  | .joining => none

/-- A creation fails. -/
def mainFails (s : Chain) : Option Chain :=
  match s.creator with
  | .creating _ => some { s with creator := .exiting }
  | _ => none

/-- The next call of a thread. -/
def thrFunc (anyOwner : Bool) (s : Chain) (n : Nat) : Option Chain :=
  match s.threads n with
  | .absent => none
  | .locking => s.lock (some n) n fun locked => locked.setThread n .writing
  | .writing => some { s.setThread n .unlocking with printed := s.printed ++ [letter n] }
  | .unlocking =>
      some (s.unlock anyOwner (some n) (next n) fun released => released.setThread n .locking)

end Chain

/-- Who takes the next step. -/
inductive ChainEvent where
  | main
  | mainFails
  | thread (n : Nat)
deriving DecidableEq, Repr

/-- A step of a process that is not over. -/
def chainStep (anyOwner : Bool) (s : Chain) (event : ChainEvent) : Option Chain :=
  if s.fault = true ∨ s.creator = .exited then none
  else
    match event with
    | .main => s.main anyOwner
    | .mainFails => s.mainFails
    | .thread n => s.thrFunc anyOwner n

/-- A step that is one of a thread. -/
def ChainEvent.ofThread : ChainEvent → Bool
  | .thread _ => true
  | _ => false

/-- The turn that a step of the chain takes. -/
def chainTurn (s : Chain) : ChainEvent → List Nat
  | .thread n => if s.threads n = .writing then [n] else []
  | _ => []

/-! ## The invariant -/

/-- While `main` is in its loop: the threads so far wait for the mutexes it has locked. -/
structure Creating (s : Chain) (created : Nat) : Prop where
  le : created ≤ thrnum
  before : ∀ n < created, s.mutexes n = .locked none ∧ s.threads n = .locking
  after : ∀ n, created ≤ n → s.threads n = .absent
  raw : ∀ n, created < n → s.mutexes n = .raw
  printed : s.printed = []

/-- Where the baton is: in an unlocked mutex, or with a thread before or after its write. -/
inductive Baton where
  | free
  | writing
  | passing
deriving DecidableEq, Repr

/-- The letters written when the baton is with the turn of a thread. -/
def Baton.turn (s : Chain) : Baton → Nat → Prop
  | .free, t => t = s.printed.length % thrnum
  | .writing, t => t = s.printed.length % thrnum
  | .passing, t => next t = s.printed.length % thrnum

/-- The thread that has the baton. -/
def Baton.pc : Baton → ThreadPc
  | .free => .locking
  | .writing => .writing
  | .passing => .unlocking

/-- Its mutex: the one that may be unlocked. -/
def Baton.mutex (t : Nat) : Baton → Mutex
  | .free => .unlocked
  | _ => .locked (some t)

/-- The steps that threads have taken when so many letters are written. -/
def Baton.steps (letters : Nat) : Baton → Nat → Prop
  | .free, steps => steps = 3 * letters
  | .writing, steps => steps = 3 * letters + 1
  | .passing, steps => steps + 1 = 3 * letters

/-- What the thread with the baton does. -/
def Baton.move (anyOwner : Bool) (s : Chain) (t : Nat) : Baton → Chain
  | .free => (s.setMutex t (.locked (some t))).setThread t .writing
  | .writing => { s.setThread t .unlocking with printed := s.printed ++ [letter t] }
  | .passing =>
      if anyOwner = true then (s.setMutex (next t) .unlocked).setThread t .locking
      else { s with fault := true }

/-- Before the baton is passed for the first time: the first thread has it, and the other
mutexes are locked by `main`. -/
structure First (s : Chain) (t : Nat) : Prop where
  holder : t = 0
  printed : s.printed.length ≤ 1
  owner : ∀ n < thrnum, n ≠ 0 → s.mutexes n = .locked none

/-- Once `main` joins: one baton, which is not passed on where only owners may unlock. -/
structure Passing (anyOwner : Bool) (s : Chain) (baton : Baton) (t : Nat) : Prop where
  lt : t < thrnum
  turn : baton.turn s t
  holder : s.threads t = baton.pc
  others : ∀ n < thrnum, n ≠ t → s.threads n = .locking
  absent : ∀ n, thrnum ≤ n → s.threads n = .absent
  own : s.mutexes t = baton.mutex t
  locked : ∀ n < thrnum, n ≠ t → ∃ owner, s.mutexes n = .locked owner
  first : anyOwner = false → First s t

/-- The chain while everything is defined. -/
structure ChainOk (anyOwner : Bool) (s : Chain) : Prop where
  fault : s.fault = false
  phase : match s.creator with
    | .initing i => i < thrnum ∧ Creating s i ∧ s.mutexes i = .raw
    | .locking i => i < thrnum ∧ Creating s i ∧ s.mutexes i = .unlocked
    | .creating i => i < thrnum ∧ Creating s i ∧ s.mutexes i = .locked none
    | .exiting => ∃ i, Creating s i
    | .exited => ∃ i, Creating s i
    | .releasing => Creating s thrnum
    | .joining => ∃ baton t, Passing anyOwner s baton t

/-- The first thread has unlocked a mutex of `main`. -/
structure Undefined (anyOwner : Bool) (s : Chain) : Prop where
  fault : s.fault = true
  standard : anyOwner = false
  printed : s.printed.length = 1

/-- What is known of the chain behind so many steps of its threads. -/
inductive ChainAt (anyOwner : Bool) (s : Chain) : Nat → Prop
  | created (ok : ChainOk anyOwner s) (creator : s.creator ≠ .joining) : ChainAt anyOwner s 0
  | passing {baton : Baton} {t steps : Nat} (ok : ChainOk anyOwner s)
      (creator : s.creator = .joining) (passing : Passing anyOwner s baton t)
      (count : baton.steps s.printed.length steps) : ChainAt anyOwner s steps
  | undefined (undefined : Undefined anyOwner s) : ChainAt anyOwner s 3

section Steps

variable {anyOwner : Bool} {s after : Chain}

/-- When the first thread is about to pass the baton it has written its letter. -/
theorem First.once {t : Nat} (h : First s t) (hturn : next t = s.printed.length % thrnum) :
    s.printed.length = 1 := by
  have hless := h.printed
  have hone : next 0 = 1 := rfl
  rw [h.holder, hone] at hturn
  unfold thrnum at hturn
  omega

@[simp] theorem setMutex_apply (s : Chain) (i n : Nat) (mutex : Mutex) :
    (s.setMutex i mutex).mutexes n = if n = i then mutex else s.mutexes n :=
  Function.update_apply _ _ _ _

@[simp] theorem setThread_apply (s : Chain) (i n : Nat) (pc : ThreadPc) :
    (s.setThread i pc).threads n = if n = i then pc else s.threads n :=
  Function.update_apply _ _ _ _

/-! ### The loop of `main` -/

/-- No thread gets past its lock while `main` is in its loop. -/
theorem Creating.blocked {created : Nat} (h : Creating s created) (n : Nat) :
    s.thrFunc anyOwner n = none := by
  unfold Chain.thrFunc
  rcases lt_or_ge n created with hn | hn
  · rw [(h.before n hn).2]
    simp only [Chain.lock, (h.before n hn).1]
  · rw [h.after n hn]

/-- What `main` does to the next mutex is nothing to the threads so far. -/
theorem Creating.setMutex {i : Nat} (h : Creating s i) (mutex : Mutex) (creator : Creator) :
    Creating { s.setMutex i mutex with creator := creator } i where
  le := h.le
  before n hn :=
    ⟨(setMutex_apply s i n _).trans ((if_neg (by omega)).trans (h.before n hn).1),
      (h.before n hn).2⟩
  after := h.after
  raw n hn := (setMutex_apply s i n _).trans ((if_neg (by omega)).trans (h.raw n hn))
  printed := h.printed

/-- One more thread waits for its mutex. -/
theorem Creating.create {i : Nat} (h : Creating s i) (hi : i < thrnum)
    (hlocked : s.mutexes i = .locked none) (creator : Creator) :
    Creating { s.setThread i .locking with creator := creator } (i + 1) where
  le := hi
  before n hn := by
    rcases Nat.lt_succ_iff_lt_or_eq.mp hn with hn | rfl
    · exact ⟨(h.before n hn).1, (setThread_apply s i n _).trans
        ((if_neg (by omega)).trans (h.before n hn).2)⟩
    · exact ⟨hlocked, (setThread_apply s n n _).trans (if_pos rfl)⟩
  after n hn := (setThread_apply s i n _).trans ((if_neg (by omega)).trans (h.after n (by omega)))
  raw n hn := h.raw n (by omega)
  printed := h.printed

/-- `main` hands out the baton. -/
theorem Creating.release (h : Creating s thrnum) :
    Passing anyOwner { s.setMutex 0 .unlocked with creator := .joining } .free 0 where
  lt := by decide
  turn := by
    show 0 = s.printed.length % thrnum
    rw [h.printed]
    rfl
  holder := (h.before 0 (by decide)).2
  others n hn _ := (h.before n hn).2
  absent := h.after
  own := (setMutex_apply s 0 0 _).trans (if_pos rfl)
  locked n hn hne :=
    ⟨none, (setMutex_apply s 0 n _).trans ((if_neg hne).trans (h.before n hn).1)⟩
  first _ :=
    { holder := rfl
      printed := by
        show s.printed.length ≤ 1
        rw [h.printed]
        exact Nat.zero_le 1
      owner := fun n hn hne =>
        (setMutex_apply s 0 n _).trans ((if_neg hne).trans (h.before n hn).1) }

/-- `main` initialises, locks and creates in turn, and hands out the baton at the end. -/
theorem main_ok (h : ChainOk anyOwner s) (hmain : s.main anyOwner = some after) :
    ChainOk anyOwner after ∧ after.printed = s.printed ∧
      (after.creator = .joining → s.printed = [] ∧ ∃ t, Passing anyOwner after .free t) := by
  have hphase := h.phase
  unfold Chain.main at hmain
  cases hcreator : s.creator with
  | initing i =>
    simp only [hcreator] at hphase hmain
    obtain ⟨hi, hcreating, hraw⟩ := hphase
    rw [if_pos hraw, Option.some.injEq] at hmain
    subst hmain
    exact ⟨⟨h.fault, hi, hcreating.setMutex _ _, (setMutex_apply s i i _).trans (if_pos rfl)⟩, rfl,
      nofun⟩
  | locking i =>
    simp only [hcreator, Chain.lock] at hphase hmain
    obtain ⟨hi, hcreating, hfree⟩ := hphase
    simp only [hfree, Option.some.injEq] at hmain
    subst hmain
    exact ⟨⟨h.fault, hi, hcreating.setMutex _ _, (setMutex_apply s i i _).trans (if_pos rfl)⟩, rfl,
      nofun⟩
  | creating i =>
    simp only [hcreator, Option.some.injEq] at hphase hmain
    obtain ⟨hi, hcreating, hlocked⟩ := hphase
    subst hmain
    have hmore := hcreating.create hi hlocked
      (if i + 1 < thrnum then .initing (i + 1) else .releasing)
    by_cases hlast : i + 1 < thrnum
    · simp only [if_pos hlast] at hmore ⊢
      exact ⟨⟨h.fault, hlast, hmore, hcreating.raw (i + 1) (by omega)⟩, rfl, nofun⟩
    · simp only [if_neg hlast] at hmore ⊢
      have hcount : i + 1 = thrnum := by omega
      rw [hcount] at hmore
      exact ⟨⟨h.fault, hmore⟩, rfl, nofun⟩
  | exiting =>
    simp only [hcreator, Option.some.injEq] at hphase hmain
    obtain ⟨i, hcreating⟩ := hphase
    subst hmain
    exact ⟨⟨h.fault, i, hcreating.le, hcreating.before, hcreating.after, hcreating.raw,
      hcreating.printed⟩, rfl, nofun⟩
  | releasing =>
    simp only [hcreator, Chain.unlock] at hphase hmain
    simp only [(hphase.before 0 (by decide)).1, or_true, if_true, Option.some.injEq] at hmain
    subst hmain
    have hpassing := @Creating.release anyOwner s hphase
    exact ⟨⟨h.fault, .free, 0, hpassing⟩, rfl, fun _ => ⟨hphase.printed, 0, hpassing⟩⟩
  | exited =>
    simp only [hcreator] at hmain
    cases hmain
  | joining =>
    simp only [hcreator] at hmain
    cases hmain

/-- A creation that fails leaves the threads so far where they are. -/
theorem mainFails_ok (h : ChainOk anyOwner s) (hmain : s.mainFails = some after) :
    ChainOk anyOwner after ∧ after.printed = s.printed ∧ after.creator = .exiting := by
  have hphase := h.phase
  unfold Chain.mainFails at hmain
  split at hmain
  · rename_i i hcreator
    simp only [hcreator] at hphase
    obtain ⟨-, hcreating, -⟩ := hphase
    cases hmain
    exact ⟨⟨h.fault, i, hcreating.le, hcreating.before, hcreating.after, hcreating.raw,
      hcreating.printed⟩, rfl, rfl⟩
  · cases hmain

/-! ### The baton -/

/-- Whoever has not got the baton is blocked. -/
theorem Passing.blocked {baton : Baton} {t n : Nat} (h : Passing anyOwner s baton t) (hne : n ≠ t) :
    s.thrFunc anyOwner n = none := by
  unfold Chain.thrFunc
  rcases lt_or_ge n thrnum with hn | hn
  · obtain ⟨owner, howner⟩ := h.locked n hn hne
    rw [h.others n hn hne]
    simp only [Chain.lock, howner]
  · rw [h.absent n hn]

/-- The thread with the baton is never blocked. -/
theorem Passing.thrFunc {baton : Baton} {t : Nat} (h : Passing anyOwner s baton t) :
    s.thrFunc anyOwner t = some (baton.move anyOwner s t) := by
  have hholder := h.holder
  have hown := h.own
  unfold Chain.thrFunc
  cases baton with
  | free => simp only [hholder, Baton.pc, Chain.lock, hown, Baton.mutex, Baton.move]
  | writing => simp only [hholder, Baton.pc, Baton.move]
  | passing =>
    obtain ⟨owner, howner⟩ := h.locked (next t) (next_lt h.lt) next_ne
    simp only [hholder, Baton.pc, Chain.unlock, howner, Baton.move]
    cases hany : anyOwner with
    | true => simp
    | false =>
      -- the next mutex is still the one that `main` has locked
      have hfirst := h.first hany
      have hmain := hfirst.owner (next t) (next_lt h.lt) (by rw [hfirst.holder]; decide)
      rw [howner, Mutex.locked.injEq] at hmain
      simp [hmain]

/-- A thread takes the baton. -/
theorem Passing.take {t : Nat} (h : Passing anyOwner s .free t) :
    Passing anyOwner (Baton.free.move anyOwner s t) .writing t where
  lt := h.lt
  turn := h.turn
  holder := (setThread_apply _ t t _).trans (if_pos rfl)
  others n hn hne := (setThread_apply _ t n _).trans ((if_neg hne).trans (h.others n hn hne))
  absent n hn := by
    have hlt := h.lt
    exact (setThread_apply _ t n _).trans ((if_neg (by omega)).trans (h.absent n hn))
  own := (setMutex_apply s t t _).trans (if_pos rfl)
  locked n hn hne := by
    obtain ⟨owner, howner⟩ := h.locked n hn hne
    exact ⟨owner, (setMutex_apply s t n _).trans ((if_neg hne).trans howner)⟩
  first hany :=
    { holder := (h.first hany).holder
      printed := (h.first hany).printed
      owner := fun n hn hne => (setMutex_apply s t n _).trans
        ((if_neg (by rwa [(h.first hany).holder])).trans ((h.first hany).owner n hn hne)) }

/-- It writes its letter. -/
theorem Passing.write {t : Nat} (h : Passing anyOwner s .writing t) :
    Passing anyOwner (Baton.writing.move anyOwner s t) .passing t where
  lt := h.lt
  turn := by
    have hturn : t = s.printed.length % thrnum := h.turn
    show next t = (s.printed ++ [letter t]).length % thrnum
    rw [List.length_append, List.length_singleton, ← next_mod, ← hturn]
  holder := (setThread_apply s t t _).trans (if_pos rfl)
  others n hn hne := (setThread_apply s t n _).trans ((if_neg hne).trans (h.others n hn hne))
  absent n hn := by
    have hlt := h.lt
    exact (setThread_apply s t n _).trans ((if_neg (by omega)).trans (h.absent n hn))
  own := h.own
  locked := h.locked
  first hany :=
    { holder := (h.first hany).holder
      printed := by
        have hturn : t = s.printed.length % thrnum := h.turn
        have hless := (h.first hany).printed
        rw [(h.first hany).holder] at hturn
        unfold thrnum at hturn
        show (s.printed ++ [letter t]).length ≤ 1
        rw [List.length_append, List.length_singleton]
        omega
      owner := (h.first hany).owner }

/-- It passes the baton on. -/
theorem Passing.pass {t : Nat} (h : Passing anyOwner s .passing t) (hany : anyOwner = true) :
    Passing anyOwner (Baton.passing.move anyOwner s t) .free (next t) := by
  have hlt := h.lt
  have hnext := next_lt h.lt
  have hne := @next_ne t
  rw [Baton.move, if_pos hany]
  refine ⟨hnext, h.turn, ?_, ?_, ?_, ?_, ?_, fun hnot => absurd (hany.symm.trans hnot) nofun⟩
  · exact (setThread_apply _ t _ _).trans ((if_neg hne).trans (h.others _ hnext hne))
  · intro n hn _
    refine (setThread_apply _ t n _).trans ?_
    split
    · rfl
    · rename_i hdifferent
      exact h.others n hn hdifferent
  · intro n hn
    exact (setThread_apply _ t n _).trans ((if_neg (by omega)).trans (h.absent n hn))
  · exact (setMutex_apply s (next t) (next t) _).trans (if_pos rfl)
  · intro n hn hdifferent
    have hlocked : ∃ owner, s.mutexes n = .locked owner := by
      by_cases hsame : n = t
      · exact ⟨some t, hsame ▸ h.own⟩
      · exact h.locked n hn hsame
    obtain ⟨owner, howner⟩ := hlocked
    exact ⟨owner, (setMutex_apply s (next t) n _).trans ((if_neg hdifferent).trans howner)⟩

/-- Where only owners may unlock, nothing is defined any more. -/
theorem Passing.undefined {t : Nat} (h : Passing anyOwner s .passing t) (hany : anyOwner = false) :
    Undefined anyOwner (Baton.passing.move anyOwner s t) := by
  rw [Baton.move, if_neg (by rw [hany]; exact Bool.false_ne_true)]
  exact ⟨rfl, hany, (h.first hany).once h.turn⟩

/-- The single writer writes when the thread with the baton does. -/
theorem Passing.follows {baton : Baton} {t : Nat} (h : Passing anyOwner s baton t) :
    follow turnStep s.printed (chainTurn s (.thread t)) =
      some (baton.move anyOwner s t).printed := by
  have hholder := h.holder
  cases baton with
  | free => simp [chainTurn, hholder, Baton.pc, Baton.move, Chain.setThread, Chain.setMutex]
  | writing =>
    simp only [chainTurn, hholder, Baton.pc, if_true, follow_singleton, turnStep]
    exact if_pos h.turn
  | passing =>
    cases anyOwner <;>
      simp [chainTurn, hholder, Baton.pc, Baton.move, Chain.setThread, Chain.setMutex]

/-- A step of the thread with the baton. -/
theorem Passing.step {baton : Baton} {t steps : Nat} (h : Passing anyOwner s baton t)
    (hok : s.fault = false) (hcreator : s.creator = .joining)
    (hsteps : baton.steps s.printed.length steps) :
    ChainAt anyOwner (baton.move anyOwner s t) (steps + 1) := by
  have hpassing : ∀ {baton' : Baton} {t' : Nat} {after : Chain}, after.fault = false →
      after.creator = .joining → Passing anyOwner after baton' t' →
      baton'.steps after.printed.length (steps + 1) → ChainAt anyOwner after (steps + 1) := by
    intro baton' t' after hfault hjoining hafter hcount
    refine .passing ⟨hfault, ?_⟩ hjoining hafter hcount
    rw [hjoining]
    exact ⟨baton', t', hafter⟩
  cases baton with
  | free => exact hpassing hok hcreator h.take (congrArg (· + 1) hsteps)
  | writing =>
    refine hpassing hok hcreator h.write ?_
    simp only [Baton.steps] at hsteps
    show steps + 1 + 1 = 3 * (s.printed ++ [letter t]).length
    rw [List.length_append, List.length_singleton]
    omega
  | passing =>
    by_cases hany : anyOwner = true
    · have hmove : Baton.passing.move anyOwner s t =
          (s.setMutex (next t) .unlocked).setThread t .locking := if_pos hany
      have hafter := h.pass hany
      rw [hmove] at hafter ⊢
      exact hpassing hok hcreator hafter hsteps
    · have hundefined := h.undefined (Bool.not_eq_true _ ▸ hany)
      have hone : s.printed.length = 1 := (h.first (Bool.not_eq_true _ ▸ hany)).once h.turn
      simp only [Baton.steps, hone] at hsteps
      rw [hsteps]
      exact .undefined hundefined

/-! ### Any step -/

/-- A thread goes on only once `main` joins. -/
theorem ChainOk.blocked (h : ChainOk anyOwner s) (hcreator : s.creator ≠ .joining) (n : Nat) :
    s.thrFunc anyOwner n = none := by
  have hphase := h.phase
  cases hwhere : s.creator with
  | joining => exact absurd hwhere hcreator
  | releasing =>
    simp only [hwhere] at hphase
    exact hphase.blocked n
  | exiting =>
    simp only [hwhere] at hphase
    exact hphase.choose_spec.blocked n
  | exited =>
    simp only [hwhere] at hphase
    exact hphase.choose_spec.blocked n
  | _ =>
    simp only [hwhere] at hphase
    exact hphase.2.1.blocked n

/-- Nothing is written before `main` joins. -/
theorem ChainOk.printed_nil (h : ChainOk anyOwner s) (hcreator : s.creator ≠ .joining) :
    s.printed = [] := by
  have hphase := h.phase
  cases hwhere : s.creator with
  | joining => exact absurd hwhere hcreator
  | releasing =>
    simp only [hwhere] at hphase
    exact hphase.printed
  | exiting =>
    simp only [hwhere] at hphase
    exact hphase.choose_spec.printed
  | exited =>
    simp only [hwhere] at hphase
    exact hphase.choose_spec.printed
  | _ =>
    simp only [hwhere] at hphase
    exact hphase.2.1.printed

/-- `main` is never blocked before it joins. -/
theorem ChainOk.main_enabled (h : ChainOk anyOwner s) (hjoining : s.creator ≠ .joining)
    (hexited : s.creator ≠ .exited) : (s.main anyOwner).isSome = true := by
  have hphase := h.phase
  unfold Chain.main
  cases hwhere : s.creator with
  | joining => exact absurd hwhere hjoining
  | exited => exact absurd hwhere hexited
  | locking i =>
    simp only [hwhere] at hphase
    simp [Chain.lock, hphase.2.2]
  | _ => rfl

/-- A step keeps what is known, and is one of the single writer when it is a write. -/
theorem ChainAt.step {steps : Nat} {event : ChainEvent} (h : ChainAt anyOwner s steps)
    (hstep : chainStep anyOwner s event = some after) :
    ChainAt anyOwner after (steps + if event.ofThread then 1 else 0) ∧
      follow turnStep s.printed (chainTurn s event) = some after.printed := by
  unfold chainStep at hstep
  split at hstep
  · cases hstep
  rename_i hover
  cases h with
  | undefined hundefined => exact absurd (.inl hundefined.fault) hover
  | created hok hcreator =>
    cases event with
    | main =>
      obtain ⟨hafter, hprinted, hjoined⟩ := main_ok hok hstep
      refine ⟨?_, congrArg some hprinted.symm⟩
      by_cases hcreator' : after.creator = .joining
      · obtain ⟨hempty, t, hpassing⟩ := hjoined hcreator'
        refine .passing hafter hcreator' hpassing ?_
        rw [hprinted, hempty]
        rfl
      · exact .created hafter hcreator'
    | mainFails =>
      obtain ⟨hafter, hprinted, hexiting⟩ := mainFails_ok hok hstep
      exact ⟨.created hafter (by rw [hexiting]; nofun), congrArg some hprinted.symm⟩
    | thread n =>
      change s.thrFunc anyOwner n = some after at hstep
      rw [hok.blocked hcreator n] at hstep
      cases hstep
  | @passing baton t _ hok hcreator hpassing hsteps =>
    cases event with
    | main =>
      change s.main anyOwner = some after at hstep
      unfold Chain.main at hstep
      simp only [hcreator] at hstep
      cases hstep
    | mainFails =>
      change s.mainFails = some after at hstep
      unfold Chain.mainFails at hstep
      simp only [hcreator] at hstep
      cases hstep
    | thread n =>
      change s.thrFunc anyOwner n = some after at hstep
      obtain rfl : n = t := by
        by_contra hne
        rw [hpassing.blocked hne] at hstep
        cases hstep
      rw [hpassing.thrFunc, Option.some.injEq] at hstep
      subst hstep
      exact ⟨hpassing.step hok.fault hcreator hsteps, hpassing.follows⟩

end Steps

/-! ## Every run -/

section Runs

variable (anyOwner : Bool)

theorem chainAt_start : ChainAt anyOwner chainStart 0 := by
  refine .created ⟨rfl, by decide, ⟨Nat.zero_le _, ?_, fun _ _ => rfl, fun _ _ => rfl, rfl⟩, rfl⟩
    nofun
  intro n hn
  omega

/-- The steps that threads took in a run. -/
def threadSteps (events : List ChainEvent) : Nat :=
  (history (chainStep anyOwner) chainStart events).countP ChainEvent.ofThread

theorem chainAt_run (events : List ChainEvent) :
    ChainAt anyOwner (run (chainStep anyOwner) chainStart events) (threadSteps anyOwner events) := by
  have hinduction := history_induction (chainStep anyOwner)
    (I := fun past s => ChainAt anyOwner s (past.countP ChainEvent.ofThread))
    ?_ events [] chainStart (chainAt_start anyOwner)
  · exact hinduction
  intro past s event after h hstep
  rw [List.countP_append, List.countP_singleton]
  exact (h.step hstep).1

/-- The chain of mutexes does what the single writer does. -/
theorem chain_refines :
    Refines (chainStep anyOwner) turnStep (fun s => ∃ steps, ChainAt anyOwner s steps)
      (fun _ _ => True) Chain.printed chainTurn := by
  rintro s event after ⟨steps, h⟩ - hstep
  obtain ⟨hafter, hfollow⟩ := h.step hstep
  exact ⟨⟨_, hafter⟩, hfollow⟩

theorem chainStep_of_defined {s : Chain} (hfault : s.fault = false) (hexited : s.creator ≠ .exited) :
    chainStep anyOwner s .main = s.main anyOwner ∧
      ∀ n, chainStep anyOwner s (.thread n) = s.thrFunc anyOwner n := by
  have hgoes : ¬ (s.fault = true ∨ s.creator = .exited) := by
    rintro (hnot | hnot)
    · rw [hfault] at hnot
      cases hnot
    · exact hexited hnot
  exact ⟨if_neg hgoes, fun _ => if_neg hgoes⟩

end Runs

section Ends

variable {anyOwner : Bool} {s : Chain} {steps : Nat}

theorem ChainAt.steps_le (h : ChainAt anyOwner s steps) :
    steps ≤ 3 * s.printed.length + 1 ∧ 3 * s.printed.length ≤ steps + 1 := by
  cases h with
  | created hok hcreator =>
    rw [hok.printed_nil hcreator]
    exact ⟨Nat.zero_le _, Nat.zero_le _⟩
  | undefined hundefined =>
    rw [hundefined.printed]
    exact ⟨by decide, by decide⟩
  | @passing baton t _ hok hcreator hpassing hsteps =>
    cases baton <;> simp only [Baton.steps] at hsteps <;> omega

/-- Who can go on while everything is defined. -/
theorem ChainAt.enabled (h : ChainAt anyOwner s steps) (hfault : s.fault = false) :
    (s.creator ≠ .joining → s.creator ≠ .exited → (chainStep anyOwner s .main).isSome = true) ∧
      (s.creator = .joining →
        ∃ t, ∀ n, (chainStep anyOwner s (.thread n)).isSome = true ↔ n = t) ∧
      (s.creator = .exited → s.printed = []) := by
  cases h with
  | undefined hundefined =>
    rw [hundefined.fault] at hfault
    cases hfault
  | created hok hcreator =>
    refine ⟨fun hjoining hexited => ?_, fun hjoining => absurd hjoining hcreator,
      fun _ => hok.printed_nil hcreator⟩
    rw [(chainStep_of_defined anyOwner hfault hexited).1]
    exact hok.main_enabled hjoining hexited
  | @passing baton t _ hok hcreator hpassing hsteps =>
    have hexited : s.creator ≠ .exited := by
      rw [hcreator]
      nofun
    refine ⟨fun hjoining => absurd hcreator hjoining, fun _ => ⟨t, fun n => ?_⟩,
      fun hover => absurd hover hexited⟩
    rw [(chainStep_of_defined anyOwner hfault hexited).2]
    constructor
    · intro hsome
      by_contra hne
      rw [hpassing.blocked hne] at hsome
      cases hsome
    · rintro rfl
      rw [hpassing.thrFunc]
      rfl

theorem ChainAt.defined (h : ChainAt anyOwner s steps) (hany : anyOwner = true) :
    s.fault = false := by
  cases h with
  | created hok => exact hok.fault
  | passing hok => exact hok.fault
  | undefined hundefined =>
    rw [hany] at hundefined
    exact absurd hundefined.standard nofun

/-- Where only owners may unlock there is no second letter. -/
theorem ChainAt.once (h : ChainAt anyOwner s steps) (hany : anyOwner = false) :
    if s.fault = true then s.printed.length = 1 else s.printed.length ≤ 1 := by
  cases h with
  | undefined hundefined =>
    rw [if_pos hundefined.fault]
    exact hundefined.printed
  | created hok hcreator =>
    rw [if_neg (by rw [hok.fault]; exact Bool.false_ne_true), hok.printed_nil hcreator]
    exact Nat.zero_le 1
  | passing hok hcreator hpassing hsteps =>
    rw [if_neg (by rw [hok.fault]; exact Bool.false_ne_true)]
    exact (hpassing.first hany).printed

end Ends

/-- In every run of `abcd.c` what is written is the beginning of `abcdabcd...`, as by a
single writer that goes around the threads, and a letter is written for every three steps
of the threads; as long as everything is defined `main` is never blocked in front of its
joins, then exactly one thread can go on, and a process that `main` has left has written
nothing.  Where any thread may unlock a mutex everything is always defined; where only its
owner may, no more than one letter is written, and it is when something is undefined. -/
theorem chain_writes_rounds (anyOwner : Bool) (events : List ChainEvent) :
    let s := run (chainStep anyOwner) chainStart events
    follow turnStep [] (trace (chainStep anyOwner) chainTurn chainStart events) =
        some s.printed ∧
      s.printed = rounds s.printed.length ∧
      threadSteps anyOwner events ≤ 3 * s.printed.length + 1 ∧
      3 * s.printed.length ≤ threadSteps anyOwner events + 1 ∧
      (s.fault = false →
        (s.creator ≠ .joining → s.creator ≠ .exited →
          (chainStep anyOwner s .main).isSome = true) ∧
        (s.creator = .joining →
          ∃ t, ∀ n, (chainStep anyOwner s (.thread n)).isSome = true ↔ n = t) ∧
        (s.creator = .exited → s.printed = [])) ∧
      (anyOwner = true → s.fault = false) ∧
      (anyOwner = false →
        if s.fault = true then s.printed.length = 1 else s.printed.length ≤ 1) := by
  intro s
  have h : ChainAt anyOwner s (threadSteps anyOwner events) := chainAt_run anyOwner events
  obtain ⟨-, hfollow⟩ := (chain_refines anyOwner).run events ⟨0, chainAt_start anyOwner⟩
  exact ⟨hfollow, printed_eq_rounds hfollow, h.steps_le.1, h.steps_le.2, h.enabled, h.defined,
    h.once⟩

end LearnApue.Para.Abcd
