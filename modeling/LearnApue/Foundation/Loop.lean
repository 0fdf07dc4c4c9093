import Mathlib

set_option autoImplicit false

/-!
# Loops with early exits, and what their logs satisfy

A C loop body ends in one of three ways: it goes on, it leaves the loop, or it is
inside a call that has not returned yet.  `Flow` is that result, and `Flow.loop`
runs a body once for each answer of the environment, so that the finite prefixes
of an unbounded run are the runs over the finite lists of answers.  `Flow.Meets`
and `Flow.loop_meets` are the rules to prove what holds at each end.

A log is a list of events, oldest first; `Log.Each` says that every event is
right in view of the events before it.
-/

namespace LearnApue.Foundation

/-- How a piece of a loop body ends: with the state to go on from, out of the loop
with a result, or inside a call that has not returned. -/
inductive Flow (σ ρ β : Type) where
  | next (state : σ)
  | leave (result : ρ)
  | blocked (state : β)

namespace Flow

variable {σ τ ρ β α : Type}

/-- Sequencing. -/
def bind (flow : Flow σ ρ β) (rest : σ → Flow τ ρ β) : Flow τ ρ β :=
  match flow with
  | .next state => rest state
  | .leave result => .leave result
  | .blocked state => .blocked state

@[simp] theorem bind_next (state : σ) (rest : σ → Flow τ ρ β) :
    (Flow.next state : Flow σ ρ β).bind rest = rest state := rfl

@[simp] theorem bind_leave (result : ρ) (rest : σ → Flow τ ρ β) :
    (Flow.leave result : Flow σ ρ β).bind rest = .leave result := rfl

@[simp] theorem bind_blocked (state : β) (rest : σ → Flow τ ρ β) :
    (Flow.blocked state : Flow σ ρ β).bind rest = .blocked state := rfl

theorem bind_assoc {υ : Type} (flow : Flow σ ρ β) (first : σ → Flow τ ρ β)
    (second : τ → Flow υ ρ β) :
    (flow.bind first).bind second = flow.bind fun state => (first state).bind second := by
  cases flow with
  | next state => rfl
  | leave result => rfl
  | blocked state => rfl

/-- A postcondition for each of the three ends. -/
def Meets (flow : Flow σ ρ β) (next : σ → Prop) (leave : ρ → Prop) (blocked : β → Prop) : Prop :=
  match flow with
  | .next state => next state
  | .leave result => leave result
  | .blocked state => blocked state

theorem Meets.bind {flow : Flow σ ρ β} {rest : σ → Flow τ ρ β} {middle : σ → Prop}
    {next : τ → Prop} {leave : ρ → Prop} {blocked : β → Prop}
    (hflow : flow.Meets middle leave blocked)
    (hrest : ∀ state, middle state → (rest state).Meets next leave blocked) :
    (flow.bind rest).Meets next leave blocked := by
  cases flow with
  | next state => exact hrest state hflow
  | leave result => exact hflow
  | blocked state => exact hflow

theorem Meets.mono {flow : Flow σ ρ β} {next next' : σ → Prop} {leave leave' : ρ → Prop}
    {blocked blocked' : β → Prop} (h : flow.Meets next leave blocked)
    (hnext : ∀ state, next state → next' state) (hleave : ∀ result, leave result → leave' result)
    (hblocked : ∀ state, blocked state → blocked' state) : flow.Meets next' leave' blocked' := by
  cases flow with
  | next state => exact hnext state h
  | leave result => exact hleave result h
  | blocked state => exact hblocked state h

theorem Meets.and {flow : Flow σ ρ β} {next next' : σ → Prop} {leave leave' : ρ → Prop}
    {blocked blocked' : β → Prop} (h : flow.Meets next leave blocked)
    (h' : flow.Meets next' leave' blocked') :
    flow.Meets (fun state => next state ∧ next' state) (fun result => leave result ∧ leave' result)
      fun state => blocked state ∧ blocked' state := by
  cases flow with
  | next state => exact ⟨h, h'⟩
  | leave result => exact ⟨h, h'⟩
  | blocked state => exact ⟨h, h'⟩

/-- The loop: while `done` answers nothing, the body runs with the next answer of
the environment; without one the loop is still running. -/
def loop (done : σ → Option ρ) (waiting : σ → β) (body : α → σ → Flow σ ρ β) :
    List α → σ → Flow σ ρ β
  | [], state =>
      match done state with
      | some result => .leave result
      | none => .blocked (waiting state)
  | answer :: rest, state =>
      match done state with
      | some result => .leave result
      | none => (body answer state).bind (loop done waiting body rest)

/-- The rule for loops: an invariant that the body keeps. -/
theorem loop_meets {done : σ → Option ρ} {waiting : σ → β} {body : α → σ → Flow σ ρ β}
    (invariant : σ → Prop) {leave : ρ → Prop} {blocked : β → Prop}
    (hbody : ∀ answer state, invariant state → done state = none →
      (body answer state).Meets invariant leave blocked)
    (hdone : ∀ state result, invariant state → done state = some result → leave result)
    (hwaiting : ∀ state, invariant state → done state = none → blocked (waiting state))
    (answers : List α) {state : σ} (h : invariant state) :
    (loop done waiting body answers state).Meets (fun _ => False) leave blocked := by
  induction answers generalizing state with
  | nil =>
    rw [loop]
    cases hd : done state with
    | some result => exact hdone state result h hd
    | none => exact hwaiting state h hd
  | cons answer rest ih =>
    rw [loop]
    cases hd : done state with
    | some result => exact hdone state result h hd
    | none =>
      exact (hbody answer state h hd).bind fun next hnext => ih hnext

/-- The states a loop can be in when its condition is tested. -/
inductive Reaches (done : σ → Option ρ) (body : α → σ → Flow σ ρ β) (start : σ) : σ → Prop
  | start : Reaches done body start start
  | turn {answer : α} {state later : σ} (before : Reaches done body start state)
      (running : done state = none) (step : body answer state = .next later) :
      Reaches done body start later

/-- What the body keeps holds wherever the loop is. -/
theorem Reaches.invariant {done : σ → Option ρ} {body : α → σ → Flow σ ρ β} {start state : σ}
    {P : σ → Prop} (hstep : ∀ answer state, P state →
      (body answer state).Meets P (fun _ => True) fun _ => True)
    (h : Reaches done body start state) (hstart : P start) : P state := by
  induction h with
  | start => exact hstart
  | @turn answer state later before running step ih =>
    have hnext := hstep answer state ih
    rw [step] at hnext
    exact hnext

/-- The turns a loop makes: the state before each and its answer. -/
def turns (done : σ → Option ρ) (body : α → σ → Flow σ ρ β) : List α → σ → List (α × σ)
  | [], _ => []
  | answer :: rest, state =>
      match done state with
      | some _ => []
      | none =>
          (answer, state) ::
            match body answer state with
            | .next later => turns done body rest later
            | _ => []

/-- Some turn of a loop that goes on is such a turn when this one is, or a later one. -/
theorem exists_turn_of_next {done : σ → Option ρ} {body : α → σ → Flow σ ρ β} {P : α × σ → Prop}
    {answer : α} {rest : List α} {state later : σ} (hrunning : done state = none)
    (hnext : body answer state = .next later) :
    (∃ turn ∈ turns done body (answer :: rest) state, P turn) ↔
      P (answer, state) ∨ ∃ turn ∈ turns done body rest later, P turn := by
  rw [turns, hrunning, hnext]
  simp only [List.exists_mem_cons_iff]

/-- A turn that ends the loop is its only one. -/
theorem exists_turn_of_last {done : σ → Option ρ} {body : α → σ → Flow σ ρ β} {P : α × σ → Prop}
    {answer : α} {rest : List α} {state : σ} (hrunning : done state = none)
    (hlast : ∀ later, body answer state ≠ .next later) :
    (∃ turn ∈ turns done body (answer :: rest) state, P turn) ↔ P (answer, state) := by
  rw [turns, hrunning]
  cases hbody : body answer state with
  | next later => exact absurd hbody (hlast later)
  | _ => simp

/-- A property that the body keeps holds before every turn. -/
theorem turns_invariant {done : σ → Option ρ} {body : α → σ → Flow σ ρ β} (P : σ → Prop)
    (hstep : ∀ answer state, P state → (body answer state).Meets P (fun _ => True) fun _ => True)
    (answers : List α) {state : σ} (h : P state) :
    ∀ turn ∈ turns done body answers state, P turn.2 := by
  induction answers generalizing state with
  | nil => simp [turns]
  | cons answer rest ih =>
    intro turn hturn
    rw [turns] at hturn
    cases hdone : done state with
    | some result =>
      rw [hdone] at hturn
      cases hturn
    | none =>
      rw [hdone] at hturn
      rcases List.mem_cons.mp hturn with rfl | hlater
      · exact h
      · have hnext := hstep answer state h
        cases hbody : body answer state with
        | next later =>
          rw [hbody] at hnext hlater
          exact ih hnext turn hlater
        | leave result =>
          rw [hbody] at hlater
          cases hlater
        | blocked state =>
          rw [hbody] at hlater
          cases hlater

/-- What a turn makes of a property that counts the turns holds before each turn. -/
theorem turns_counted {done : σ → Option ρ} {body : α → σ → Flow σ ρ β} (P : Nat → σ → Prop)
    (hstep : ∀ n answer state, P n state →
      (body answer state).Meets (P (n + 1)) (fun _ => True) fun _ => True)
    (answers : List α) {n : Nat} {state : σ} (h : P n state) :
    ∀ front turn behind, turns done body answers state = front ++ turn :: behind →
      P (n + front.length) turn.2 := by
  induction answers generalizing n state with
  | nil =>
    intro front turn behind heq
    simp [turns] at heq
  | cons answer rest ih =>
    intro front turn behind heq
    rw [turns] at heq
    cases hdone : done state with
    | some result =>
      rw [hdone] at heq
      simp at heq
    | none =>
      rw [hdone] at heq
      cases front with
      | nil =>
        rw [List.nil_append, List.cons.injEq] at heq
        rw [← heq.1]
        exact h
      | cons first front =>
        rw [List.cons_append, List.cons.injEq] at heq
        have hnext := hstep n answer state h
        cases hbody : body answer state with
        | next later =>
          rw [hbody] at hnext heq
          have hlater := ih hnext front turn behind heq.2
          rwa [List.length_cons, Nat.add_comm front.length, ← Nat.add_assoc]
        | leave result =>
          rw [hbody] at heq
          simp at heq
        | blocked state =>
          rw [hbody] at heq
          simp at heq

/-- The rule for a loop without a condition whose invariant is about the answers taken:
the answers split into those of the turns that went on, the one the loop was left with and
the rest.  `allowed` is what is assumed of the turns. -/
theorem loop_taken {done : σ → Option ρ} {waiting : σ → β} {body : α → σ → Flow σ ρ β}
    (allowed : α → σ → Prop) (P : List α → σ → Prop) {leave : List α → α → ρ → Prop}
    (hrunning : ∀ state, done state = none)
    (hbody : ∀ taken answer state, P taken state → allowed answer state →
      (body answer state).Meets (P (taken ++ [answer])) (leave taken answer) fun _ => False)
    (answers : List α) {taken : List α} {state : σ} (h : P taken state)
    (hallowed : ∀ turn ∈ turns done body answers state, allowed turn.1 turn.2) :
    (loop done waiting body answers state).Meets (fun _ => False)
      (fun result => ∃ front answer behind, answers = front ++ answer :: behind ∧
        leave (taken ++ front) answer result)
      fun final => ∃ state, final = waiting state ∧ P (taken ++ answers) state := by
  induction answers generalizing taken state with
  | nil =>
    rw [loop, hrunning]
    exact ⟨state, rfl, by rwa [List.append_nil]⟩
  | cons answer rest ih =>
    rw [turns, hrunning] at hallowed
    have hturn := hbody taken answer state h (hallowed (answer, state) List.mem_cons_self)
    rw [loop, hrunning]
    dsimp only
    cases hresult : body answer state with
    | next later =>
      rw [hresult] at hturn hallowed
      have hrest := ih hturn fun turn hmem => hallowed turn (List.mem_cons_of_mem _ hmem)
      refine hrest.mono (fun _ => id) ?_ ?_
      · rintro result ⟨front, last, behind, rfl, hleave⟩
        refine ⟨answer :: front, last, behind, rfl, ?_⟩
        rwa [List.append_assoc, List.singleton_append] at hleave
      · rintro final ⟨last, hfinal, hlast⟩
        refine ⟨last, hfinal, ?_⟩
        rwa [List.append_assoc, List.singleton_append] at hlast
    | leave result =>
      rw [hresult] at hturn
      exact ⟨[], answer, rest, rfl, by rwa [List.append_nil]⟩
    | blocked state =>
      rw [hresult] at hturn
      exact hturn.elim

/-- A loop that its body leaves where it was makes every turn. -/
theorem turns_of_stuck {done : σ → Option ρ} {body : α → σ → Flow σ ρ β} {answers : List α}
    {state : σ} (hrunning : done state = none)
    (hstuck : ∀ answer ∈ answers, body answer state = .next state) :
    turns done body answers state = answers.map fun answer => (answer, state) := by
  induction answers with
  | nil => rfl
  | cons answer rest ih =>
    rw [turns, hrunning, hstuck answer List.mem_cons_self]
    simp only [List.map_cons]
    rw [ih fun later hlater => hstuck later (List.mem_cons_of_mem _ hlater)]

end Flow

/-! ## Logs -/

namespace Log

variable {ε : Type}

/-- Every event of the log is right in view of the events before it. -/
def Each (right : List ε → ε → Prop) (log : List ε) : Prop :=
  ∀ past event rest, log = past ++ event :: rest → right past event

theorem each_nil (right : List ε → ε → Prop) : Each right [] := by
  intro past event rest h
  simp at h

theorem each_concat {right : List ε → ε → Prop} {log : List ε} {event : ε} :
    Each right (log ++ [event]) ↔ Each right log ∧ right log event := by
  constructor
  · intro h
    refine ⟨?_, h log event [] rfl⟩
    intro past earlier rest heq
    exact h past earlier (rest ++ [event]) (by rw [heq, List.append_assoc, List.cons_append])
  · rintro ⟨hlog, hevent⟩ past earlier rest heq
    rcases List.eq_nil_or_concat rest with rfl | ⟨front, last, rfl⟩
    · obtain ⟨hpast, hone⟩ := List.append_inj' heq rfl
      rw [List.cons.injEq] at hone
      rw [← hpast, ← hone.1]
      exact hevent
    · refine hlog past earlier front ?_
      rw [List.concat_eq_append, ← List.cons_append, ← List.append_assoc] at heq
      exact (List.append_inj' heq rfl).1

theorem each_append {right : List ε → ε → Prop} {log more : List ε} :
    Each right (log ++ more) ↔
      Each right log ∧ Each (fun past event => right (log ++ past) event) more := by
  induction more using List.reverseRecOn with
  | nil =>
    rw [List.append_nil]
    exact ⟨fun h => ⟨h, each_nil _⟩, fun h => h.1⟩
  | append_singleton more event ih =>
    rw [← List.append_assoc, each_concat, each_concat, ih, and_assoc]

/-- Two events of a log stand somewhere in it, one before the other. -/
theorem pairwise_of_split {R : ε → ε → Prop} {log : List ε}
    (h : ∀ past earlier between later rest,
      log = past ++ earlier :: (between ++ later :: rest) → R earlier later) :
    log.Pairwise R := by
  induction log with
  | nil => exact List.Pairwise.nil
  | cons event log ih =>
    refine List.pairwise_cons.mpr ⟨?_, ih ?_⟩
    · intro later hlater
      obtain ⟨between, rest, heq⟩ := List.append_of_mem hlater
      exact h [] event between later rest (by rw [heq, List.nil_append])
    · intro past earlier between later rest heq
      exact h (event :: past) earlier between later rest (by rw [heq, List.cons_append])

end Log

end LearnApue.Foundation
