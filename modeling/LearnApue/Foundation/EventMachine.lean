import Mathlib

set_option autoImplicit false

/-!
# Machines that accept or reject events

A machine is a partial step function: `step state event` is the next state, or
`none` when the event is rejected and the state stays.  The history of a run is
the list of the accepted events, oldest first.  Properties of states and
properties that relate a state to its history are proved by one step each
(`run_induction`, `history_induction`).
-/

namespace LearnApue.Foundation.EventMachine

variable {σ ε : Type} (step : σ → ε → Option σ)

/-- One event: the next state, or the old one when the event is rejected. -/
def apply (state : σ) (event : ε) : σ := (step state event).getD state

/-- The state after a sequence of events. -/
def run (state : σ) (events : List ε) : σ := events.foldl (apply step) state

/-- The accepted events of a run, oldest first. -/
def history (state : σ) : List ε → List ε
  | [] => []
  | event :: rest =>
      match step state event with
      | none => history state rest
      | some next => event :: history next rest

@[simp] theorem run_nil (state : σ) : run step state [] = state := rfl

@[simp] theorem run_cons (state : σ) (event : ε) (rest : List ε) :
    run step state (event :: rest) = run step (apply step state event) rest := rfl

theorem history_cons_of_none {state : σ} {event : ε} (h : step state event = none)
    (rest : List ε) : history step state (event :: rest) = history step state rest := by
  simp [history, h]

theorem history_cons_of_some {state next : σ} {event : ε} (h : step state event = some next)
    (rest : List ε) :
    history step state (event :: rest) = event :: history step next rest := by
  simp [history, h]

/-- What holds of the past and the state, and survives every accepted event,
holds of the whole history and the final state. -/
theorem history_induction {I : List ε → σ → Prop}
    (hstep : ∀ past state event next,
      I past state → step state event = some next → I (past ++ [event]) next) :
    ∀ (events : List ε) (past : List ε) (state : σ), I past state →
      I (past ++ history step state events) (run step state events) := by
  intro events
  induction events with
  | nil =>
    intro past state h
    simpa [history] using h
  | cons event rest ih =>
    intro past state h
    cases hs : step state event with
    | none =>
      rw [history_cons_of_none step hs, run_cons, apply, hs]
      exact ih past state h
    | some next =>
      have hnext : I (past ++ [event]) next := hstep past state event next h hs
      have htail := ih (past ++ [event]) next hnext
      rw [history_cons_of_some step hs, run_cons, apply, hs]
      simpa using htail

/-- An invariant of the accepted steps holds after every run. -/
theorem run_induction {I : σ → Prop}
    (hstep : ∀ state event next, I state → step state event = some next → I next)
    (events : List ε) {state : σ} (h : I state) : I (run step state events) :=
  @history_induction σ ε step (fun _ state => I state)
    (fun _ state event next hi hs => hstep state event next hi hs) events [] state h

theorem run_append (state : σ) (first rest : List ε) :
    run step state (first ++ rest) = run step (run step state first) rest :=
  List.foldl_append

/-! ## Runs whose steps meet a condition -/

/-- The condition holds before every accepted step of a run. -/
def Meets (P : σ → ε → Prop) : σ → List ε → Prop
  | _, [] => True
  | state, event :: rest =>
      ((step state event).isSome = true → P state event) ∧ Meets P (apply step state event) rest

instance decidableMeets (P : σ → ε → Prop) [∀ state event, Decidable (P state event)] :
    (state : σ) → (events : List ε) → Decidable (Meets step P state events)
  | _, [] => inferInstanceAs (Decidable True)
  | state, event :: rest =>
      have := decidableMeets P (apply step state event) rest
      inferInstanceAs (Decidable (_ ∧ _))

variable {step}

/-- An invariant of the accepted steps that meet the condition holds after every
run whose steps meet it. -/
theorem Meets.run_induction {P : σ → ε → Prop} (I : σ → Prop)
    (hstep : ∀ state event next, I state → P state event → step state event = some next → I next)
    {events : List ε} {state : σ} (hmeets : Meets step P state events) (h : I state) :
    I (run step state events) := by
  induction events generalizing state with
  | nil => exact h
  | cons event rest ih =>
    obtain ⟨hfirst, hrest⟩ := hmeets
    rw [run_cons]
    apply ih hrest
    cases hs : step state event with
    | none =>
      rw [apply, hs]
      exact h
    | some next =>
      rw [apply, hs]
      exact hstep state event next h (hfirst (by rw [hs]; rfl)) hs

/-- A condition that follows from another one and an invariant. -/
theorem Meets.of_inv {P Q : σ → ε → Prop} (I : σ → Prop)
    (hstep : ∀ state event next, I state → P state event → step state event = some next →
      Q state event ∧ I next)
    {events : List ε} {state : σ} (hmeets : Meets step P state events) (h : I state) :
    Meets step Q state events := by
  induction events generalizing state with
  | nil => trivial
  | cons event rest ih =>
    obtain ⟨hfirst, hrest⟩ := hmeets
    cases hs : step state event with
    | none =>
      have hsame : apply step state event = state := by rw [apply, hs]; rfl
      rw [hsame] at hrest
      refine ⟨?_, by rw [hsame]; exact ih hrest h⟩
      intro hsome
      rw [hs] at hsome
      cases hsome
    | some next =>
      have hnext : apply step state event = next := by rw [apply, hs]; rfl
      obtain ⟨hQ, hI⟩ := hstep state event next h (hfirst (by rw [hs]; rfl)) hs
      rw [hnext] at hrest
      exact ⟨fun _ => hQ, by rw [hnext]; exact ih hrest hI⟩

theorem meets_append {P : σ → ε → Prop} {state : σ} {first rest : List ε} :
    Meets step P state (first ++ rest) ↔
      Meets step P state first ∧ Meets step P (run step state first) rest := by
  induction first generalizing state with
  | nil => exact ⟨fun h => ⟨trivial, h⟩, fun h => h.2⟩
  | cons event first ih =>
    rw [List.cons_append, run_cons]
    simp only [Meets, ih, and_assoc]

theorem Meets.and {P Q : σ → ε → Prop} {state : σ} {events : List ε}
    (hP : Meets step P state events) (hQ : Meets step Q state events) :
    Meets step (fun state event => P state event ∧ Q state event) state events := by
  induction events generalizing state with
  | nil => trivial
  | cons event rest ih => exact ⟨fun h => ⟨hP.1 h, hQ.1 h⟩, ih hP.2 hQ.2⟩

/-- A run meets a condition when each of its accepted steps does. -/
theorem meets_of_forall {P : σ → ε → Prop} {state : σ} {events : List ε}
    (h : ∀ before event rest next, events = before ++ event :: rest →
      step (run step state before) event = some next → P (run step state before) event) :
    Meets step P state events := by
  induction events generalizing state with
  | nil => trivial
  | cons event events ih =>
    refine ⟨fun hsome => ?_, ih fun before other rest next hevents hstep => ?_⟩
    · obtain ⟨next, hnext⟩ := Option.isSome_iff_exists.mp hsome
      exact h [] event events next rfl hnext
    · subst hevents
      exact h (event :: before) other rest next rfl hstep

/-- A measure that every accepted step of a kind lowers bounds how many of them a run
has. -/
theorem Meets.history_length_le {P : σ → ε → Prop} {I : σ → Prop} (work : σ → Nat)
    (hstep : ∀ state event next, I state → P state event → step state event = some next →
      I next ∧ work next < work state)
    {events : List ε} {state : σ} (hmeets : Meets step P state events) (h : I state) :
    (history step state events).length + work (run step state events) ≤ work state := by
  induction events generalizing state with
  | nil => simp [history]
  | cons event rest ih =>
    obtain ⟨hfirst, hrest⟩ := hmeets
    cases hs : step state event with
    | none =>
      have hsame : apply step state event = state := by rw [apply, hs]; rfl
      rw [hsame] at hrest
      rw [history_cons_of_none step hs, run_cons, hsame]
      exact ih hrest h
    | some next =>
      have hnext : apply step state event = next := by rw [apply, hs]; rfl
      obtain ⟨hI, hless⟩ := hstep state event next h (hfirst (by rw [hs]; rfl)) hs
      rw [hnext] at hrest
      have htail := ih hrest hI
      rw [history_cons_of_some step hs, run_cons, hnext, List.length_cons]
      omega

variable (step)

/-! ## Counting since the last reset -/

/-- The events after the last one that resets. -/
def sinceReset (resets : ε → Bool) (past : List ε) : List ε :=
  past.rtakeWhile fun event => !resets event

@[simp] theorem sinceReset_nil (resets : ε → Bool) : sinceReset resets ([] : List ε) = [] := rfl

theorem sinceReset_concat_of_reset {resets : ε → Bool} {event : ε} (h : resets event = true)
    (past : List ε) : sinceReset resets (past ++ [event]) = [] := by
  unfold sinceReset
  rw [List.rtakeWhile_concat]
  simp [h]

theorem sinceReset_concat {resets : ε → Bool} {event : ε} (h : resets event = false)
    (past : List ε) : sinceReset resets (past ++ [event]) = sinceReset resets past ++ [event] := by
  unfold sinceReset
  rw [List.rtakeWhile_concat]
  simp [h]

/-! ## Logs whose entries follow from the past -/

/-- Every entry of a log stands in the relation to the entries before it. -/
def Justified (R : List ε → ε → Prop) (log : List ε) : Prop :=
  ∀ before entry after, log = before ++ entry :: after → R before entry

theorem justified_nil (R : List ε → ε → Prop) : Justified R [] := by
  intro before entry after h
  cases before <;> cases h

theorem Justified.concat {R : List ε → ε → Prop} {log : List ε} (h : Justified R log) {entry : ε}
    (hentry : R log entry) : Justified R (log ++ [entry]) := by
  intro before other after hsplit
  rcases List.eq_nil_or_concat after with rfl | ⟨rest, last, rfl⟩
  · obtain ⟨rfl, hother⟩ := List.append_inj' hsplit rfl
    cases hother
    exact hentry
  · rw [List.concat_eq_append, ← List.cons_append, ← List.append_assoc] at hsplit
    obtain ⟨hlog, _⟩ := List.append_inj' hsplit rfl
    exact h before other rest hlog

end LearnApue.Foundation.EventMachine
