import Mathlib

set_option autoImplicit false

/-!
# Sections under a lock

A section is what a thread does while it holds a lock: a tree of atomic steps over a
shared state.  A step takes the environment's answer, and waits where it has no
outcome.  The threads outside the lock interfere between any two steps.

`Section.wp` is the weakest precondition of a section among interference: the
postcondition at every end, safety at every state on the way, and that a step which
waits waits for something the interference can still bring about.  A `Monitor` is a
lock with any number of callers; whatever its sections keep safe is safe in every
state it reaches.
-/

namespace LearnApue.Foundation

/-- A tree of atomic steps. -/
inductive Section (σ ε α : Type) : Type 1
  | done (value : α)
  | step {ρ : Type} (act : σ → ε → Option (ρ × σ)) (next : ρ → Section σ ε α)

namespace Section

variable {σ ε α β : Type}

/-- Sequencing. -/
def bind (first : Section σ ε α) (rest : α → Section σ ε β) : Section σ ε β :=
  match first with
  | .done value => rest value
  | .step act next => .step act fun result => (next result).bind rest

instance : Monad (Section σ ε) where
  pure := .done
  bind := .bind

/-- A read of the shared state. -/
def read (f : σ → α) : Section σ ε α := .step (fun state _ => some (f state, state)) .done

/-- A write of the shared state. -/
def write (f : σ → σ) : Section σ ε Unit := .step (fun state _ => some ((), f state)) .done

end Section

/-- What a section can rely on: how the other threads change the state, which answers
the environment gives, and what has to hold all the time. -/
structure Setting (σ ε : Type) where
  interferes : σ → σ → Prop
  answers : ε → Prop
  safe : σ → Prop

namespace Setting

variable {σ ε : Type}

/-- Any number of interferences. -/
def Later (setting : Setting σ ε) : σ → σ → Prop := Relation.ReflTransGen setting.interferes

/-- What no interference ends. -/
def Stable (setting : Setting σ ε) (P : σ → Prop) : Prop :=
  ∀ state next, P state → setting.interferes state next → P next

theorem Stable.later {setting : Setting σ ε} {P : σ → Prop} (h : setting.Stable P)
    {state later : σ} (hstate : P state) (hlater : setting.Later state later) : P later := by
  induction hlater with
  | refl => exact hstate
  | tail _ hstep ih => exact h _ _ ih hstep

end Setting

namespace Section

variable {σ ε α β : Type} (setting : Setting σ ε)

/-- The weakest precondition of a section among interference. -/
def wp : Section σ ε α → (α → σ → Prop) → σ → Prop
  | .done value, post, state => post value state
  | .step act next, post, state =>
      (∃ later, setting.Later state later ∧
        ∃ answer, setting.answers answer ∧ (act later answer).isSome) ∧
      ∀ answer result after, setting.answers answer → act state answer = some (result, after) →
        ∀ later, setting.Later after later → setting.safe later ∧ (next result).wp post later

variable {setting}

@[simp] theorem wp_done (value : α) (post : α → σ → Prop) (state : σ) :
    (done value : Section σ ε α).wp setting post state ↔ post value state := Iff.rfl

@[simp] theorem wp_pure (value : α) (post : α → σ → Prop) (state : σ) :
    (pure value : Section σ ε α).wp setting post state ↔ post value state := Iff.rfl

/-- The rule for sequencing. -/
theorem wp_bind (first : Section σ ε α) (rest : α → Section σ ε β) (post : β → σ → Prop)
    (state : σ) :
    (first >>= rest).wp setting post state ↔
      first.wp setting (fun value after => (rest value).wp setting post after) state := by
  change (first.bind rest).wp setting post state ↔ _
  induction first generalizing state with
  | done value => exact Iff.rfl
  | step act next ih =>
    simp only [bind, wp, ih]

/-- The rule for one step: an assertion for each result, which no interference ends. -/
theorem wp_step {ρ : Type} {act : σ → ε → Option (ρ × σ)} {next : ρ → Section σ ε α}
    {post : α → σ → Prop} {state : σ} (P : ρ → σ → Prop)
    (hprogress : ∃ later, setting.Later state later ∧
      ∃ answer, setting.answers answer ∧ (act later answer).isSome)
    (hact : ∀ answer result after, setting.answers answer →
      act state answer = some (result, after) → P result after)
    (hstable : ∀ result, setting.Stable (P result))
    (hsafe : ∀ result after, P result after → setting.safe after)
    (hnext : ∀ result after, P result after → (next result).wp setting post after) :
    (step act next).wp setting post state := by
  refine ⟨hprogress, ?_⟩
  intro answer result after hanswer heq later hlater
  have hP := (hstable result).later (hact answer result after hanswer heq) hlater
  exact ⟨hsafe result later hP, hnext result later hP⟩

/-- The rule for reads. -/
theorem wp_read {f : σ → α} {post : α → σ → Prop} {state : σ} (P : σ → Prop)
    (hanswer : ∃ answer, setting.answers answer) (hstate : P state) (hstable : setting.Stable P)
    (hsafe : ∀ after, P after → setting.safe after)
    (hpost : ∀ after, P after → post (f state) after) :
    (read f : Section σ ε α).wp setting post state := by
  obtain ⟨answer, hanswer⟩ := hanswer
  refine wp_step (fun result after => result = f state ∧ P after)
    ⟨state, .refl, answer, hanswer, rfl⟩ ?_ ?_ ?_ ?_
  · intro answer result after _ heq
    rw [Option.some.injEq, Prod.mk.injEq] at heq
    exact ⟨heq.1.symm, heq.2 ▸ hstate⟩
  · rintro result before next ⟨hresult, hbefore⟩ hstep
    exact ⟨hresult, hstable _ _ hbefore hstep⟩
  · exact fun result after h => hsafe after h.2
  · rintro result after ⟨rfl, hafter⟩
    exact hpost after hafter

/-- The rule for writes. -/
theorem wp_write {f : σ → σ} {post : Unit → σ → Prop} {state : σ} (P : σ → Prop)
    (hanswer : ∃ answer, setting.answers answer) (hstate : P (f state))
    (hstable : setting.Stable P) (hsafe : ∀ after, P after → setting.safe after)
    (hpost : ∀ after, P after → post () after) :
    (write f : Section σ ε Unit).wp setting post state := by
  obtain ⟨answer, hanswer⟩ := hanswer
  refine wp_step (fun _ => P) ⟨state, .refl, answer, hanswer, rfl⟩ ?_ (fun _ => hstable)
    (fun _ => hsafe) fun _ => hpost
  intro answer result after _ heq
  rw [Option.some.injEq, Prod.mk.injEq] at heq
  exact heq.2 ▸ hstate

theorem wp_mono {body : Section σ ε α} {post post' : α → σ → Prop} {state : σ}
    (h : body.wp setting post state) (hpost : ∀ value after, post value after → post' value after) :
    body.wp setting post' state := by
  induction body generalizing state with
  | done value => exact hpost value state h
  | step act next ih =>
    refine ⟨h.1, ?_⟩
    intro answer result after hanswer heq later hlater
    obtain ⟨hsafe, hrest⟩ := h.2 answer result after hanswer heq later hlater
    exact ⟨hsafe, ih result hrest⟩

/-! ## What every act does -/

/-- Every act of the section relates the states before and after it. -/
def Acts (R : σ → σ → Prop) : Section σ ε α → Prop
  | .done _ => True
  | .step act next =>
      (∀ state answer result after, act state answer = some (result, after) → R state after) ∧
        ∀ result, (next result).Acts R

section Acts

variable {R : σ → σ → Prop}

theorem acts_any (body : Section σ ε α) : body.Acts fun _ _ => True := by
  induction body with
  | done value => exact trivial
  | step act next ih => exact ⟨fun _ _ _ _ _ => trivial, ih⟩

theorem acts_bind {first : Section σ ε α} {rest : α → Section σ ε β} (hfirst : first.Acts R)
    (hrest : ∀ value, (rest value).Acts R) : (first >>= rest).Acts R := by
  change (first.bind rest).Acts R
  induction first with
  | done value => exact hrest value
  | step act next ih => exact ⟨hfirst.1, fun result => ih result (hfirst.2 result)⟩

theorem acts_read (hrefl : ∀ state, R state state) (f : σ → α) :
    (read f : Section σ ε α).Acts R := by
  refine ⟨?_, fun _ => trivial⟩
  intro state answer result after heq
  rw [Option.some.injEq, Prod.mk.injEq] at heq
  exact heq.2 ▸ hrefl state

theorem acts_write {f : σ → σ} (h : ∀ state, R state (f state)) :
    (write f : Section σ ε Unit).Acts R := by
  refine ⟨?_, fun _ => trivial⟩
  intro state answer result after heq
  rw [Option.some.injEq, Prod.mk.injEq] at heq
  exact heq.2 ▸ h state

theorem Acts.mono {body : Section σ ε α} {R' : σ → σ → Prop} (h : body.Acts R)
    (himp : ∀ state after, R state after → R' state after) : body.Acts R' := by
  induction body with
  | done value => exact trivial
  | step act next ih =>
    refine ⟨?_, fun result => ih result (h.2 result)⟩
    intro state answer result after heq
    exact himp _ _ (h.1 state answer result after heq)

theorem Acts.and {body : Section σ ε α} {R' : σ → σ → Prop} (h : body.Acts R)
    (h' : body.Acts R') : body.Acts fun state after => R state after ∧ R' state after := by
  induction body with
  | done value => exact trivial
  | step act next ih =>
    refine ⟨?_, fun result => ih result (h.2 result) (h'.2 result)⟩
    intro state answer result after heq
    exact ⟨h.1 state answer result after heq, h'.1 state answer result after heq⟩

/-- The frame rule: what the acts and the interference keep stays true. -/
theorem Acts.wp_and {body : Section σ ε α} {post : α → σ → Prop} {state : σ} {frame : σ → Prop}
    (hacts : body.Acts R) (hkeeps : ∀ state after, R state after → frame state → frame after)
    (hstable : setting.Stable frame) (hframe : frame state)
    (h : body.wp setting post state) :
    body.wp setting (fun value after => post value after ∧ frame after) state := by
  induction body generalizing state with
  | done value => exact ⟨h, hframe⟩
  | step act next ih =>
    refine ⟨h.1, ?_⟩
    intro answer result after hanswer heq later hlater
    obtain ⟨hsafe, hrest⟩ := h.2 answer result after hanswer heq later hlater
    have hafter := hkeeps _ _ (hacts.1 state answer result after heq) hframe
    exact ⟨hsafe, ih result (hacts.2 result) (hstable.later hafter hlater) hrest⟩

end Acts

/-! ## Complete runs -/

/-- A run of a section to its end. -/
inductive Runs (setting : Setting σ ε) : Section σ ε α → σ → α → σ → Prop
  | done {value : α} {state later : σ} (interfered : setting.Later state later) :
      Runs setting (.done value) state value later
  | step {ρ : Type} {act : σ → ε → Option (ρ × σ)} {next : ρ → Section σ ε α}
      {state before after later : σ} {answer : ε} {result : ρ} {value : α}
      (interfered : setting.Later state before) (answered : setting.answers answer)
      (acted : act before answer = some (result, after))
      (rest : Runs setting (next result) after value later) :
      Runs setting (.step act next) state value later

/-- What a section's precondition says of its runs. -/
theorem Runs.meets {body : Section σ ε α} {post : α → σ → Prop} {state later : σ} {value : α}
    (hrun : Runs setting body state value later)
    (h : ∀ before, setting.Later state before → body.wp setting post before) :
    post value later := by
  induction hrun with
  | done interfered => exact h _ interfered
  | step interfered answered acted _ ih =>
    refine ih fun before hbefore => ?_
    exact ((h _ interfered).2 _ _ _ answered acted before hbefore).2

/-- A run alternates interference and acts. -/
theorem Runs.trace {body : Section σ ε α} {R : σ → σ → Prop} {state later : σ} {value : α}
    (hrun : Runs setting body state value later) (hacts : body.Acts R) :
    Relation.ReflTransGen (fun before after => setting.interferes before after ∨ R before after)
      state later := by
  have hlift : ∀ {before after : σ}, setting.Later before after →
      Relation.ReflTransGen (fun before after => setting.interferes before after ∨ R before after)
        before after := Relation.ReflTransGen.mono (fun _ _ => Or.inl) _ _
  induction hrun with
  | done interfered => exact hlift interfered
  | @step ρ act next state before after later answer result value interfered answered acted _ ih =>
    have hstep := hacts.1 before answer result after acted
    exact (hlift interfered).trans ((ih (hacts.2 result)).head (Or.inr hstep))

theorem Runs.earlier {body : Section σ ε α} {state before later : σ} {value : α}
    (hlater : setting.Later state before) (h : Runs setting body before value later) :
    Runs setting body state value later := by
  cases h with
  | done interfered => exact .done (hlater.trans interfered)
  | step interfered answered acted rest =>
    exact .step (hlater.trans interfered) answered acted rest

/-- The runs of a sequence. -/
theorem Runs.andThen {first : Section σ ε α} {rest : α → Section σ ε β} {state middle later : σ}
    {value : α} {result : β} (hfirst : Runs setting first state value middle)
    (hrest : Runs setting (rest value) middle result later) :
    Runs setting (first >>= rest) state result later := by
  change Runs setting (first.bind rest) state result later
  induction hfirst with
  | done interfered => exact hrest.earlier interfered
  | step interfered answered acted _ ih => exact .step interfered answered acted (ih hrest)

theorem runs_read_bind {f : σ → α} {rest : α → Section σ ε β} {state later : σ} {result : β}
    (h : Runs setting (read f >>= rest) state result later) :
    ∃ before, setting.Later state before ∧ Runs setting (rest (f before)) before result later := by
  cases h with
  | step interfered _ acted rest =>
    rw [Option.some.injEq, Prod.mk.injEq] at acted
    obtain ⟨rfl, rfl⟩ := acted
    exact ⟨_, interfered, rest⟩

/-- Every act of every run from the state relates the states before and after it. -/
def ActsIn (setting : Setting σ ε) (R : σ → σ → Prop) : Section σ ε α → σ → Prop
  | .done _, _ => True
  | .step act next, state =>
      ∀ before, setting.Later state before → ∀ answer result after, setting.answers answer →
        act before answer = some (result, after) → R before after ∧ (next result).ActsIn setting R after

theorem Acts.actsIn {body : Section σ ε α} {R : σ → σ → Prop} (h : body.Acts R) (state : σ) :
    body.ActsIn setting R state := by
  induction body generalizing state with
  | done value => exact trivial
  | step act next ih =>
    intro before _ answer result after _ hact
    exact ⟨h.1 before answer result after hact, ih result (h.2 result) after⟩

theorem ActsIn.mono {body : Section σ ε α} {R R' : σ → σ → Prop} {state : σ}
    (h : body.ActsIn setting R state) (himp : ∀ before after, R before after → R' before after) :
    body.ActsIn setting R' state := by
  induction body generalizing state with
  | done value => exact trivial
  | step act next ih =>
    intro before hbefore answer result after hanswer hact
    obtain ⟨hrelated, hnext⟩ := h before hbefore answer result after hanswer hact
    exact ⟨himp _ _ hrelated, ih result hnext⟩

/-- The acts of a sequence. -/
theorem actsIn_bind {first : Section σ ε α} {rest : α → Section σ ε β} {R : σ → σ → Prop} {state : σ}
    (hfirst : first.ActsIn setting R state)
    (hrest : ∀ value later, Runs setting first state value later →
      (rest value).ActsIn setting R later) :
    (first >>= rest).ActsIn setting R state := by
  change (first.bind rest).ActsIn setting R state
  induction first generalizing state with
  | done value => exact hrest value state (.done .refl)
  | step act next ih =>
    intro before hbefore answer result after hanswer hact
    obtain ⟨hrelated, hnext⟩ := hfirst before hbefore answer result after hanswer hact
    exact ⟨hrelated, ih result hnext fun value later hrun =>
      hrest value later (.step hbefore hanswer hact hrun)⟩

/-- Every value a section can return. -/
def Returns (P : α → Prop) : Section σ ε α → Prop
  | .done value => P value
  | .step _ next => ∀ result, (next result).Returns P

theorem returns_bind {first : Section σ ε α} {rest : α → Section σ ε β} {P : β → Prop}
    (h : ∀ value, (rest value).Returns P) : (first >>= rest).Returns P := by
  change (first.bind rest).Returns P
  induction first with
  | done value => exact h value
  | step act next ih => exact fun result => ih result

theorem Returns.bind {first : Section σ ε α} {rest : α → Section σ ε β} {P : α → Prop}
    {Q : β → Prop} (h : first.Returns P) (hrest : ∀ value, P value → (rest value).Returns Q) :
    (first >>= rest).Returns Q := by
  change (first.bind rest).Returns Q
  induction first with
  | done value => exact hrest value h
  | step act next ih => exact fun result => ih result (h result)

theorem Returns.run {body : Section σ ε α} {P : α → Prop} {state later : σ} {value : α}
    (h : body.Returns P) (hrun : Runs setting body state value later) : P value := by
  induction hrun with
  | done _ => exact h
  | step _ _ _ _ ih => exact ih (h _)

/-- A section with a precondition has a run. -/
theorem exists_run {body : Section σ ε α} {post : α → σ → Prop} {state : σ}
    (h : ∀ before, setting.Later state before → body.wp setting post before) :
    ∃ value later, Runs setting body state value later := by
  induction body generalizing state with
  | done value => exact ⟨value, state, .done .refl⟩
  | step act next ih =>
    obtain ⟨before, hbefore, answer, hanswer, henabled⟩ := (h state .refl).1
    obtain ⟨⟨result, after⟩, hact⟩ := Option.isSome_iff_exists.mp henabled
    obtain ⟨value, later, hrest⟩ := ih result fun next hnext =>
      ((h before hbefore).2 answer result after hanswer hact next hnext).2
    exact ⟨value, later, .step hbefore hanswer hact hrest⟩

/-- A run without interference, in which the environment gives one answer. -/
def evaluate (answer : ε) : Section σ ε α → σ → Option (α × σ)
  | .done value, state => some (value, state)
  | .step act next, state =>
      match act state answer with
      | none => none
      | some (result, after) => (next result).evaluate answer after

theorem evaluate_read_bind {f : σ → α} {rest : α → Section σ ε β} {answer : ε} {state : σ} :
    (read f >>= rest).evaluate answer state = (rest (f state)).evaluate answer state := rfl

theorem runs_of_evaluate {body : Section σ ε α} {answer : ε} {state later : σ} {value : α}
    (hanswer : setting.answers answer) (h : body.evaluate answer state = some (value, later)) :
    Runs setting body state value later := by
  induction body generalizing state with
  | done result =>
    rw [evaluate, Option.some.injEq, Prod.mk.injEq] at h
    rw [← h.1, ← h.2]
    exact .done .refl
  | step act next ih =>
    rw [evaluate] at h
    cases hact : act state answer with
    | none =>
      rw [hact] at h
      cases h
    | some outcome =>
      rw [hact] at h
      exact .step .refl hanswer hact (ih _ h)

/-- The same run, as long as each state it acts in passes a check. -/
def evaluateIn (check : σ → Bool) (answer : ε) : Section σ ε α → σ → Option (α × σ)
  | .done value, state => if check state then some (value, state) else none
  | .step act next, state =>
      if check state then
        match act state answer with
        | none => none
        | some (result, after) => (next result).evaluateIn check answer after
      else none

theorem check_of_evaluateIn {body : Section σ ε α} {check : σ → Bool} {answer : ε}
    {state later : σ} {value : α} (h : body.evaluateIn check answer state = some (value, later)) :
    check state = true := by
  by_contra hnot
  cases body with
  | done result => simp [evaluateIn, hnot] at h
  | step act next => simp [evaluateIn, hnot] at h

/-- The same run, as long as each of its acts passes a check. -/
def evaluateBy (check : σ → σ → Bool) (answer : ε) : Section σ ε α → σ → Option (α × σ)
  | .done value, state => some (value, state)
  | .step act next, state =>
      match act state answer with
      | none => none
      | some (result, after) =>
          if check state after then (next result).evaluateBy check answer after else none

end Section

/-! ## The lock and its callers -/

/-- A lock: the shared state, the sections that wait for the lock, and what the holder
has yet to do. -/
structure Monitor (σ ε : Type) where
  world : σ
  waiting : List (Section σ ε Unit)
  inside : Option (Section σ ε Unit)

namespace Monitor

variable {σ ε : Type} (setting : Setting σ ε) (arrives : σ → Section σ ε Unit → Prop)

/-- The steps of a monitor. -/
inductive Step : Monitor σ ε → Monitor σ ε → Prop
  | arrive {world : σ} {waiting : List (Section σ ε Unit)} {inside : Option (Section σ ε Unit)}
      {called : Section σ ε Unit} (call : arrives world called) :
      Step ⟨world, waiting, inside⟩ ⟨world, called :: waiting, inside⟩
  | enter {world : σ} {front back : List (Section σ ε Unit)} {called : Section σ ε Unit} :
      Step ⟨world, front ++ called :: back, none⟩ ⟨world, front ++ back, some called⟩
  | act {ρ : Type} {world after : σ} {waiting : List (Section σ ε Unit)}
      {act : σ → ε → Option (ρ × σ)} {next : ρ → Section σ ε Unit} {answer : ε} {result : ρ}
      (answered : setting.answers answer) (acted : act world answer = some (result, after)) :
      Step ⟨world, waiting, some (.step act next)⟩ ⟨after, waiting, some (next result)⟩
  | leave {world : σ} {waiting : List (Section σ ε Unit)} :
      Step ⟨world, waiting, some (.done ())⟩ ⟨world, waiting, none⟩
  | interfere {world after : σ} {waiting : List (Section σ ε Unit)}
      {inside : Option (Section σ ε Unit)} (interfered : setting.interferes world after) :
      Step ⟨world, waiting, inside⟩ ⟨after, waiting, inside⟩

/-- The states a monitor reaches from a free lock. -/
inductive Reaches (start : σ) : Monitor σ ε → Prop
  | start : Reaches start ⟨start, [], none⟩
  | step {monitor next : Monitor σ ε} (before : Reaches start monitor)
      (step : Step setting arrives monitor next) : Reaches start next

/-- A section that brings the free lock's invariant back. -/
def Legal (rest : σ → Prop) (called : Section σ ε Unit) : Prop :=
  ∀ state, rest state → called.wp setting (fun _ => rest) state

/-- What holds of a monitor: the holder will bring the free lock's invariant back. -/
structure Inv (rest : σ → Prop) (monitor : Monitor σ ε) : Prop where
  safe : setting.safe monitor.world
  legal : ∀ called ∈ monitor.waiting, Legal setting rest called
  free : monitor.inside = none → rest monitor.world
  held : ∀ called, monitor.inside = some called → ∀ later, setting.Later monitor.world later →
    setting.safe later ∧ called.wp setting (fun _ => rest) later

variable {setting arrives}

theorem Inv.step {rest : σ → Prop} (hstable : setting.Stable rest)
    (hsafe : ∀ state, rest state → setting.safe state)
    (hlegal : ∀ world called, arrives world called → Legal setting rest called)
    {monitor next : Monitor σ ε} (h : Inv setting rest monitor)
    (hstep : Step setting arrives monitor next) : Inv setting rest next := by
  cases hstep with
  | arrive call =>
    refine ⟨h.safe, ?_, h.free, h.held⟩
    intro called hcalled
    rcases List.mem_cons.mp hcalled with rfl | hcalled
    · exact hlegal _ _ call
    · exact h.legal called hcalled
  | @enter world front back called =>
    have hrest := h.free rfl
    refine ⟨h.safe, ?_, (by simp), ?_⟩
    · intro other hother
      refine h.legal other ?_
      rcases List.mem_append.mp hother with hfront | hback
      · exact List.mem_append_left _ hfront
      · exact List.mem_append_right _ (List.mem_cons_of_mem _ hback)
    · intro entered hentered later hlater
      rw [Option.some.injEq] at hentered
      have hresting := hstable.later hrest hlater
      refine ⟨hsafe later hresting, ?_⟩
      rw [← hentered]
      exact h.legal called (List.mem_append_right _ List.mem_cons_self) later hresting
  | @act ρ world after waiting act following answer result answered acted =>
    have hholder := (h.held _ rfl world .refl).2.2 answer result after answered acted
    refine ⟨(hholder after .refl).1, h.legal, (by simp), ?_⟩
    intro entered hentered later hlater
    rw [Option.some.injEq] at hentered
    rw [← hentered]
    exact hholder later hlater
  | leave =>
    refine ⟨h.safe, h.legal, ?_, (by simp)⟩
    intro _
    exact (h.held _ rfl _ .refl).2
  | @interfere world after waiting inside interfered =>
    have hlater : setting.Later world after := .single interfered
    refine ⟨?_, h.legal, ?_, ?_⟩
    · cases hinside : inside with
      | none => exact hsafe after (hstable _ _ (h.free hinside) interfered)
      | some called => exact (h.held called hinside after hlater).1
    · intro hfree
      exact hstable _ _ (h.free hfree) interfered
    · intro called hcalled later hmore
      exact h.held called hcalled later (hlater.trans hmore)

/-- The invariant holds in every state the monitor reaches. -/
theorem inv_of_reaches {rest : σ → Prop} (hstable : setting.Stable rest)
    (hsafe : ∀ state, rest state → setting.safe state)
    (hlegal : ∀ world called, arrives world called → Legal setting rest called)
    {start : σ} (hstart : rest start) {monitor : Monitor σ ε}
    (h : Reaches setting arrives start monitor) : Inv setting rest monitor := by
  induction h with
  | start => exact ⟨hsafe start hstart, (by simp), fun _ => hstart, (by simp)⟩
  | step _ hstep ih => exact ih.step hstable hsafe hlegal hstep

/-! ## Runs whose steps are restricted -/

/-- Every section that waits or holds the lock acts by `R`. -/
structure AllAct (R : σ → σ → Prop) (monitor : Monitor σ ε) : Prop where
  waiting : ∀ called ∈ monitor.waiting, called.Acts R
  inside : ∀ called, monitor.inside = some called → called.Acts R

/-- A step changes the world by interference or by an act of the holder, or not at all. -/
theorem AllAct.step {R : σ → σ → Prop}
    (hacts : ∀ world called, arrives world called → called.Acts R) {monitor next : Monitor σ ε}
    (h : AllAct R monitor) (hstep : Step setting arrives monitor next) :
    AllAct R next ∧ (next.world = monitor.world ∨ setting.interferes monitor.world next.world ∨
      R monitor.world next.world) := by
  cases hstep with
  | arrive call =>
    refine ⟨⟨?_, h.inside⟩, Or.inl rfl⟩
    intro called hcalled
    rcases List.mem_cons.mp hcalled with rfl | hcalled
    · exact hacts _ _ call
    · exact h.waiting called hcalled
  | @enter world front back called =>
    refine ⟨⟨?_, ?_⟩, Or.inl rfl⟩
    · intro other hother
      apply h.waiting
      rcases List.mem_append.mp hother with hfront | hback
      · exact List.mem_append_left _ hfront
      · exact List.mem_append_right _ (List.mem_cons_of_mem _ hback)
    · intro entered hentered
      rw [← Option.some.inj hentered]
      exact h.waiting called (List.mem_append_right _ List.mem_cons_self)
  | act answered acted =>
    have hholder := h.inside _ rfl
    refine ⟨⟨h.waiting, ?_⟩, Or.inr (Or.inr (hholder.1 _ _ _ _ acted))⟩
    intro entered hentered
    rw [← Option.some.inj hentered]
    exact hholder.2 _
  | leave => exact ⟨⟨h.waiting, fun _ hinside => by cases hinside⟩, Or.inl rfl⟩
  | interfere interfered => exact ⟨⟨h.waiting, h.inside⟩, Or.inr (Or.inl interfered)⟩

/-- A run in which every step relates the worlds so. -/
def RunsBy (setting : Setting σ ε) (arrives : σ → Section σ ε Unit → Prop) (Q : σ → σ → Prop) :
    Monitor σ ε → Monitor σ ε → Prop :=
  Relation.ReflTransGen fun monitor next =>
    Step setting arrives monitor next ∧ Q monitor.world next.world

/-- What is reached goes on by any number of steps. -/
theorem Reaches.steps {start : σ} {monitor next : Monitor σ ε}
    (h : Reaches setting arrives start monitor)
    (hsteps : Relation.ReflTransGen (Step setting arrives) monitor next) :
    Reaches setting arrives start next := by
  induction hsteps with
  | refl => exact h
  | tail _ hstep ih => exact ih.step hstep

theorem Reaches.runs {Q : σ → σ → Prop} {start : σ} {monitor next : Monitor σ ε}
    (h : Reaches setting arrives start monitor) (hrun : RunsBy setting arrives Q monitor next) :
    Reaches setting arrives start next :=
  h.steps (Relation.ReflTransGen.mono (fun _ _ hstep => hstep.1) _ _ hrun)

section RunsBy

variable {Q R : σ → σ → Prop} {world later : σ} {called : Section σ ε Unit}

theorem RunsBy.interference {waiting : List (Section σ ε Unit)} {inside : Option (Section σ ε Unit)}
    (hinterferes : ∀ before after, setting.interferes before after → Q before after)
    (hlater : setting.Later world later) :
    RunsBy setting arrives Q ⟨world, waiting, inside⟩ ⟨later, waiting, inside⟩ := by
  induction hlater with
  | refl => exact .refl
  | tail _ hstep ih => exact ih.tail ⟨.interfere hstep, hinterferes _ _ hstep⟩

/-- The holder's run to its end. -/
theorem RunsBy.finish {waiting : List (Section σ ε Unit)} {value : Unit}
    (hsame : ∀ world, Q world world)
    (hinterferes : ∀ before after, setting.interferes before after → Q before after)
    (hR : ∀ before after, R before after → Q before after)
    (hrun : Section.Runs setting called world value later) (hacts : called.Acts R) :
    RunsBy setting arrives Q ⟨world, waiting, some called⟩ ⟨later, waiting, none⟩ := by
  induction hrun with
  | done interfered =>
    exact Relation.ReflTransGen.tail (RunsBy.interference hinterferes interfered) ⟨.leave, hsame _⟩
  | step interfered answered acted _ ih =>
    have hact := hR _ _ (hacts.1 _ _ _ _ acted)
    exact (Relation.ReflTransGen.tail (RunsBy.interference hinterferes interfered)
      ⟨.act answered acted, hact⟩).trans (ih (hacts.2 _))

/-- A call that runs alone under the lock. -/
theorem RunsBy.call (hsame : ∀ world, Q world world)
    (hinterferes : ∀ before after, setting.interferes before after → Q before after)
    (hR : ∀ before after, R before after → Q before after) (harrives : arrives world called)
    (hrun : Section.Runs setting called world () later) (hacts : called.Acts R) :
    RunsBy setting arrives Q ⟨world, [], none⟩ ⟨later, [], none⟩ := by
  have hentered : RunsBy setting arrives Q ⟨world, [], none⟩ ⟨world, [], some called⟩ :=
    (Relation.ReflTransGen.single ⟨.arrive harrives, hsame _⟩).tail
      ⟨@Step.enter _ _ _ _ world [] [] called, hsame _⟩
  exact hentered.trans (RunsBy.finish hsame hinterferes hR hrun hacts)

/-- A call whose every state passes a check. -/
theorem RunsBy.evaluate {check : σ → Bool} {answer : ε}
    (hcheck : ∀ before after, check before = true → Q before after) (hanswer : setting.answers answer)
    (harrives : arrives world called)
    (h : called.evaluateIn check answer world = some ((), later)) :
    RunsBy setting arrives Q ⟨world, [], none⟩ ⟨later, [], none⟩ := by
  have hstart := hcheck world world (Section.check_of_evaluateIn h)
  have hentered : RunsBy setting arrives Q ⟨world, [], none⟩ ⟨world, [], some called⟩ :=
    (Relation.ReflTransGen.single ⟨.arrive harrives, hstart⟩).tail
      ⟨@Step.enter _ _ _ _ world [] [] called, hstart⟩
  refine hentered.trans ?_
  clear hstart hentered harrives
  induction called generalizing world with
  | done result =>
    rw [Section.evaluateIn] at h
    split at h
    · rename_i hpassed
      rw [Option.some.injEq, Prod.mk.injEq] at h
      rw [← h.2]
      exact .single ⟨.leave, hcheck _ _ hpassed⟩
    · cases h
  | step act next ih =>
    rw [Section.evaluateIn] at h
    split at h
    · rename_i hpassed
      cases hact : act world answer with
      | none =>
        rw [hact] at h
        cases h
      | some outcome =>
        rw [hact] at h
        exact (ih _ h).head ⟨.act hanswer hact, hcheck _ _ hpassed⟩
    · cases h

/-- A call each of whose acts passes a check. -/
theorem RunsBy.evaluateBy {check : σ → σ → Bool} {answer : ε} (hsame : ∀ world, Q world world)
    (hcheck : ∀ before after, check before after = true → Q before after)
    (hanswer : setting.answers answer) (harrives : arrives world called)
    (h : called.evaluateBy check answer world = some ((), later)) :
    RunsBy setting arrives Q ⟨world, [], none⟩ ⟨later, [], none⟩ := by
  have hentered : RunsBy setting arrives Q ⟨world, [], none⟩ ⟨world, [], some called⟩ :=
    (Relation.ReflTransGen.single ⟨.arrive harrives, hsame _⟩).tail
      ⟨@Step.enter _ _ _ _ world [] [] called, hsame _⟩
  refine hentered.trans ?_
  clear hentered harrives
  induction called generalizing world with
  | done result =>
    rw [Section.evaluateBy, Option.some.injEq, Prod.mk.injEq] at h
    rw [← h.2]
    exact .single ⟨.leave, hsame _⟩
  | step act next ih =>
    rw [Section.evaluateBy] at h
    cases hact : act world answer with
    | none =>
      rw [hact] at h
      cases h
    | some outcome =>
      rw [hact] at h
      dsimp only at h
      split at h
      · rename_i hpassed
        exact (ih _ h).head ⟨.act hanswer hact, hcheck _ _ hpassed⟩
      · cases h

end RunsBy

theorem Reaches.call {start world later : σ} {called : Section σ ε Unit}
    (h : Reaches setting arrives start ⟨world, [], none⟩) (harrives : arrives world called)
    (hrun : Section.Runs setting called world () later) :
    Reaches setting arrives start ⟨later, [], none⟩ := by
  have hacts : called.Acts fun _ _ => True := Section.acts_any called
  exact h.runs (RunsBy.call (fun _ => trivial) (fun _ _ _ => trivial) (fun _ _ h => h) harrives
    hrun hacts)

end Monitor

end LearnApue.Foundation
