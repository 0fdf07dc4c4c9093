import LearnApue.Foundation.EventMachine

set_option autoImplicit false

/-!
# Refinement between event machines

A concrete machine refines an abstract one when every accepted step of the
concrete one is a finite sequence of accepted steps of the abstract one, the
sequence named by a label function and the states related by an abstraction
function.  The step condition is proved once for each event; `refines_run`
carries it to runs, also to runs that meet a condition.
-/

namespace LearnApue.Foundation.EventMachine

variable {σ ε τ α : Type}

/-- The state after a sequence of events that are all accepted. -/
def follow (step : τ → α → Option τ) (state : τ) (events : List α) : Option τ :=
  events.foldlM step state

section Follow

variable {step : τ → α → Option τ}

@[simp] theorem follow_nil (state : τ) : follow step state [] = some state := rfl

theorem follow_cons (state : τ) (event : α) (rest : List α) :
    follow step state (event :: rest) = (step state event).bind (follow step · rest) :=
  List.foldlM_cons

@[simp] theorem follow_singleton (state : τ) (event : α) :
    follow step state [event] = step state event := by
  rw [follow_cons]
  cases step state event <;> rfl

theorem follow_append {state middle : τ} {first : List α}
    (h : follow step state first = some middle) (rest : List α) :
    follow step state (first ++ rest) = follow step middle rest := by
  unfold follow at h ⊢
  rw [List.foldlM_append, h]
  rfl

theorem follow_concat (state : τ) (first : List α) (event : α) :
    follow step state (first ++ [event]) = (follow step state first).bind (step · event) := by
  unfold follow
  rw [List.foldlM_append]
  cases first.foldlM step state with
  | none => rfl
  | some middle => exact follow_singleton middle event

end Follow

/-! ## The abstract events of a run -/

/-- The abstract events that the accepted events of a run stand for. -/
def trace (step : σ → ε → Option σ) (labels : σ → ε → List α) : σ → List ε → List α
  | _, [] => []
  | state, event :: rest =>
      match step state event with
      | none => trace step labels state rest
      | some next => labels state event ++ trace step labels next rest

section Trace

variable {cstep : σ → ε → Option σ} {labels : σ → ε → List α}

theorem trace_cons_of_none {state : σ} {event : ε} (h : cstep state event = none)
    (rest : List ε) :
    trace cstep labels state (event :: rest) = trace cstep labels state rest := by
  simp [trace, h]

theorem trace_cons_of_some {state next : σ} {event : ε} (h : cstep state event = some next)
    (rest : List ε) :
    trace cstep labels state (event :: rest) =
      labels state event ++ trace cstep labels next rest := by
  simp [trace, h]

/-- A quantity that every accepted step changes by what its labels are worth changes
over a run by what the trace is worth. -/
theorem measure_trace {μ : Type} [AddCommMonoid μ] {I : σ → Prop} {P : σ → ε → Prop}
    (value : σ → μ) (worth : α → μ)
    (hstep : ∀ state event next, I state → P state event → cstep state event = some next →
      I next ∧ value next = value state + ((labels state event).map worth).sum)
    {events : List ε} {state : σ} (hmeets : Meets cstep P state events) (h : I state) :
    value (run cstep state events) =
      value state + ((trace cstep labels state events).map worth).sum := by
  induction events generalizing state with
  | nil => simp [trace]
  | cons event rest ih =>
    obtain ⟨hfirst, hrest⟩ := hmeets
    cases hs : cstep state event with
    | none =>
      have hsame : apply cstep state event = state := by rw [apply, hs]; rfl
      rw [hsame] at hrest
      rw [trace_cons_of_none hs, run_cons, hsame]
      exact ih hrest h
    | some next =>
      have hmoved : apply cstep state event = next := by rw [apply, hs]; rfl
      obtain ⟨hnext, hvalue⟩ := hstep state event next h (hfirst (by rw [hs]; rfl)) hs
      rw [hmoved] at hrest
      rw [trace_cons_of_some hs, run_cons, hmoved, List.map_append, List.sum_append,
        ← add_assoc, ← hvalue]
      exact ih hrest hnext

end Trace

/-! ## Refinement of runs -/

/-- Every accepted step that meets the condition keeps the invariant and is the
abstract steps that its labels name. -/
def Refines (cstep : σ → ε → Option σ) (astep : τ → α → Option τ) (I : σ → Prop)
    (P : σ → ε → Prop) (abstraction : σ → τ) (labels : σ → ε → List α) : Prop :=
  ∀ state event next, I state → P state event → cstep state event = some next →
    I next ∧ follow astep (abstraction state) (labels state event) = some (abstraction next)

section Refines

variable {cstep : σ → ε → Option σ} {astep : τ → α → Option τ} {I : σ → Prop}
  {P : σ → ε → Prop} {abstraction : σ → τ} {labels : σ → ε → List α}

/-- A run whose steps meet the condition is a run of the abstract machine. -/
theorem Refines.run_of_meets (hrefines : Refines cstep astep I P abstraction labels)
    {events : List ε} {state : σ} (hmeets : Meets cstep P state events) (h : I state) :
    I (run cstep state events) ∧
      follow astep (abstraction state) (trace cstep labels state events) =
        some (abstraction (run cstep state events)) := by
  induction events generalizing state with
  | nil => exact ⟨h, rfl⟩
  | cons event rest ih =>
    obtain ⟨hfirst, hrest⟩ := hmeets
    cases hs : cstep state event with
    | none =>
      have hsame : apply cstep state event = state := by rw [apply, hs]; rfl
      rw [hsame] at hrest
      rw [trace_cons_of_none hs, run_cons, hsame]
      exact ih hrest h
    | some next =>
      have hnext : apply cstep state event = next := by rw [apply, hs]; rfl
      rw [hnext] at hrest
      obtain ⟨hI, hfollow⟩ := hrefines state event next h (hfirst (by rw [hs]; rfl)) hs
      rw [trace_cons_of_some hs, run_cons, hnext, follow_append hfollow]
      exact ih hrest hI

theorem meets_true (events : List ε) (state : σ) : Meets cstep (fun _ _ => True) state events :=
  meets_of_forall fun _ _ _ _ _ _ => trivial

/-- Every run is a run of the abstract machine. -/
theorem Refines.run (hrefines : Refines cstep astep I (fun _ _ => True) abstraction labels)
    (events : List ε) {state : σ} (h : I state) :
    I (run cstep state events) ∧
      follow astep (abstraction state) (trace cstep labels state events) =
        some (abstraction (run cstep state events)) :=
  hrefines.run_of_meets (meets_true events state) h

end Refines

end LearnApue.Foundation.EventMachine
