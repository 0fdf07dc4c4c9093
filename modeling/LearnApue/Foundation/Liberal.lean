import LearnApue.Foundation.Monitor

set_option autoImplicit false

/-!
# Sections under a lock, without progress

`Section.wlp` is the weakest liberal precondition: what `Section.wp` says but for the
progress, and only of the runs whose states pass a guard.  The guard stands for what is
known already of every state a monitor reaches, so that a second invariant can rest on
a first one.  A section keeps an invariant when it brings it back; sequences keep what
their parts keep.
-/

namespace LearnApue.Foundation

namespace Section

variable {σ ε α β : Type} (setting : Setting σ ε) (guard : σ → Prop)

/-- The weakest liberal precondition of a section among interference. -/
def wlp : Section σ ε α → (α → σ → Prop) → σ → Prop
  | .done value, post, state => post value state
  | .step act next, post, state =>
      ∀ answer result after, setting.answers answer → act state answer = some (result, after) →
        guard after → ∀ later, setting.Later after later →
          setting.safe later ∧ (next result).wlp post later

/-- The section brings the invariant back. -/
def Keeps (I : σ → Prop) (body : Section σ ε α) : Prop :=
  ∀ state, I state → body.wlp setting guard (fun _ => I) state

variable {setting guard}

@[simp] theorem wlp_done (value : α) (post : α → σ → Prop) (state : σ) :
    (done value : Section σ ε α).wlp setting guard post state ↔ post value state := Iff.rfl

@[simp] theorem wlp_pure (value : α) (post : α → σ → Prop) (state : σ) :
    (pure value : Section σ ε α).wlp setting guard post state ↔ post value state := Iff.rfl

/-- The rule for sequencing. -/
theorem wlp_bind (first : Section σ ε α) (rest : α → Section σ ε β) (post : β → σ → Prop)
    (state : σ) :
    (first >>= rest).wlp setting guard post state ↔
      first.wlp setting guard (fun value after => (rest value).wlp setting guard post after)
        state := by
  change (first.bind rest).wlp setting guard post state ↔ _
  induction first generalizing state with
  | done value => exact Iff.rfl
  | step act next ih => simp only [bind, wlp, ih]

theorem wlp_mono {body : Section σ ε α} {post post' : α → σ → Prop} {state : σ}
    (h : body.wlp setting guard post state)
    (hpost : ∀ value after, post value after → post' value after) :
    body.wlp setting guard post' state := by
  induction body generalizing state with
  | done value => exact hpost value state h
  | step act next ih =>
    intro answer result after hanswer heq hguard later hlater
    obtain ⟨hsafe, hrest⟩ := h answer result after hanswer heq hguard later hlater
    exact ⟨hsafe, ih result hrest⟩

/-- The rule for one step: an assertion for each result, which no interference ends. -/
theorem wlp_step {ρ : Type} {act : σ → ε → Option (ρ × σ)} {next : ρ → Section σ ε α}
    {post : α → σ → Prop} {state : σ} (P : ρ → σ → Prop)
    (hact : ∀ answer result after, setting.answers answer →
      act state answer = some (result, after) → guard after → P result after)
    (hstable : ∀ result, setting.Stable (P result))
    (hsafe : ∀ result after, P result after → setting.safe after)
    (hnext : ∀ result after, P result after → (next result).wlp setting guard post after) :
    (step act next).wlp setting guard post state := by
  intro answer result after hanswer heq hguard later hlater
  have hP := (hstable result).later (hact answer result after hanswer heq hguard) hlater
  exact ⟨hsafe result later hP, hnext result later hP⟩

/-- The rule for writes. -/
theorem wlp_write {f : σ → σ} {post : Unit → σ → Prop} {state : σ} (P : σ → Prop)
    (hstate : guard (f state) → P (f state)) (hstable : setting.Stable P)
    (hsafe : ∀ after, P after → setting.safe after) (hpost : ∀ after, P after → post () after) :
    (write f : Section σ ε Unit).wlp setting guard post state := by
  refine wlp_step (fun _ => P) ?_ (fun _ => hstable) (fun _ => hsafe) fun _ => hpost
  intro answer result after _ heq hguard
  rw [Option.some.injEq, Prod.mk.injEq] at heq
  obtain ⟨rfl, rfl⟩ := heq
  exact hstate hguard

/-- The rule for reads. -/
theorem wlp_read {f : σ → α} {post : α → σ → Prop} {state : σ} (P : σ → Prop) (hstate : P state)
    (hstable : setting.Stable P) (hsafe : ∀ after, P after → setting.safe after)
    (hpost : ∀ after, P after → post (f state) after) :
    (read f : Section σ ε α).wlp setting guard post state := by
  refine wlp_step (fun result after => result = f state ∧ P after) ?_ ?_ ?_ ?_
  · intro answer result after _ heq _
    rw [Option.some.injEq, Prod.mk.injEq] at heq
    exact ⟨heq.1.symm, heq.2 ▸ hstate⟩
  · rintro result before next ⟨hresult, hbefore⟩ hstep
    exact ⟨hresult, hstable _ _ hbefore hstep⟩
  · exact fun result after h => hsafe after h.2
  · rintro result after ⟨rfl, hafter⟩
    exact hpost after hafter

/-- What a section's liberal precondition says of its runs. -/
theorem Runs.meetsLiberal {body : Section σ ε α} {post : α → σ → Prop} {state later : σ}
    {value : α} (hrun : Runs setting body state value later)
    (h : ∀ before, setting.Later state before → body.wlp setting (fun _ => True) post before) :
    post value later := by
  induction hrun with
  | done interfered => exact h _ interfered
  | step interfered answered acted _ ih =>
    refine ih fun before hbefore => ?_
    exact ((h _ interfered) _ _ _ answered acted trivial before hbefore).2

/-! ## Keeping an invariant -/

variable {I : σ → Prop}

theorem keeps_pure (value : α) : (pure value : Section σ ε α).Keeps setting guard I :=
  fun _ h => h

theorem keeps_bind {first : Section σ ε α} {rest : α → Section σ ε β}
    (hfirst : first.Keeps setting guard I) (hrest : ∀ value, (rest value).Keeps setting guard I) :
    (first >>= rest).Keeps setting guard I := by
  intro state h
  rw [wlp_bind]
  exact wlp_mono (hfirst state h) hrest

/-- A section each of whose acts keeps the invariant keeps it. -/
theorem Acts.keeps {body : Section σ ε α} {R : σ → σ → Prop} (hacts : body.Acts R)
    (hstable : setting.Stable I) (hsafe : ∀ state, I state → setting.safe state)
    (hkeeps : ∀ state after, R state after → guard after → I state → I after) :
    body.Keeps setting guard I := by
  intro state h
  induction body generalizing state with
  | done value => exact h
  | step act next ih =>
    intro answer result after _ heq hguard later hlater
    have hafter := hkeeps _ _ (hacts.1 state answer result after heq) hguard h
    have hI := hstable.later hafter hlater
    exact ⟨hsafe later hI, ih result (hacts.2 result) later hI⟩

end Section

namespace Monitor

variable {σ ε : Type} {setting strong : Setting σ ε} {guard rest : σ → Prop}
  {arrives : σ → Section σ ε Unit → Prop} {Q : σ → σ → Prop} {monitor next later : Monitor σ ε}

/-- What holds of a monitor whose sections keep the free lock's invariant. -/
structure Kept (setting : Setting σ ε) (guard rest : σ → Prop) (monitor : Monitor σ ε) :
    Prop where
  safe : setting.safe monitor.world
  waiting : ∀ called ∈ monitor.waiting, called.Keeps setting guard rest
  free : monitor.inside = none → rest monitor.world
  held : ∀ called, monitor.inside = some called → ∀ later, setting.Later monitor.world later →
    setting.safe later ∧ called.wlp setting guard (fun _ => rest) later

theorem Kept.step (hstable : setting.Stable rest)
    (hsafe : ∀ state, rest state → setting.safe state)
    (hkeeps : ∀ world called, arrives world called → called.Keeps setting guard rest)
    (hanswers : ∀ answer, strong.answers answer → setting.answers answer)
    (h : Kept setting guard rest monitor) (hstep : Step strong arrives monitor next)
    (hinterferes : strong.interferes monitor.world next.world →
      setting.interferes monitor.world next.world)
    (hguard : guard next.world) : Kept setting guard rest next := by
  cases hstep with
  | arrive call =>
    refine ⟨h.safe, ?_, h.free, h.held⟩
    intro called hcalled
    rcases List.mem_cons.mp hcalled with rfl | hcalled
    · exact hkeeps _ _ call
    · exact h.waiting called hcalled
  | @enter world front back called =>
    have hrest := h.free rfl
    refine ⟨h.safe, ?_, (by simp), ?_⟩
    · intro other hother
      apply h.waiting
      rcases List.mem_append.mp hother with hfront | hback
      · exact List.mem_append_left _ hfront
      · exact List.mem_append_right _ (List.mem_cons_of_mem _ hback)
    · intro entered hentered later hlater
      rw [Option.some.injEq] at hentered
      have hresting := hstable.later hrest hlater
      refine ⟨hsafe later hresting, ?_⟩
      rw [← hentered]
      exact h.waiting called (List.mem_append_right _ List.mem_cons_self) later hresting
  | @act ρ world after waiting act following answer result answered acted =>
    have hholder := (h.held _ rfl world .refl).2 answer result after (hanswers _ answered) acted
      hguard
    refine ⟨(hholder after .refl).1, h.waiting, (by simp), ?_⟩
    intro entered hentered later hlater
    rw [Option.some.injEq] at hentered
    rw [← hentered]
    exact hholder later hlater
  | leave =>
    refine ⟨h.safe, h.waiting, ?_, (by simp)⟩
    intro _
    exact (h.held _ rfl _ .refl).2
  | @interfere world after waiting inside interfered =>
    have hone := hinterferes interfered
    have hlater : setting.Later world after := .single hone
    refine ⟨?_, h.waiting, ?_, ?_⟩
    · cases hinside : inside with
      | none => exact hsafe after (hstable _ _ (h.free hinside) hone)
      | some called => exact (h.held called hinside after hlater).1
    · intro hfree
      exact hstable _ _ (h.free hfree) hone
    · intro called hcalled later hmore
      exact h.held called hcalled later (hlater.trans hmore)

/-- What the sections keep holds after every run whose states pass the guard. -/
theorem Kept.run (hstable : setting.Stable rest)
    (hsafe : ∀ state, rest state → setting.safe state)
    (hkeeps : ∀ world called, arrives world called → called.Keeps setting guard rest)
    (hanswers : ∀ answer, strong.answers answer → setting.answers answer)
    (hinterferes : ∀ before after, strong.interferes before after → Q before after →
      guard before → guard after → setting.interferes before after)
    (h : Kept setting guard rest monitor) (hrun : RunsBy strong arrives Q monitor later)
    (hguard : ∀ between, RunsBy strong arrives Q monitor between → guard between.world) :
    Kept setting guard rest later := by
  induction hrun with
  | refl => exact h
  | @tail between last hbefore hstep ih =>
    have hlast := hguard last (hbefore.tail hstep)
    refine ih.step hstable hsafe hkeeps hanswers hstep.1 ?_ hlast
    intro hinterfered
    exact hinterferes _ _ hinterfered hstep.2 (hguard between hbefore) hlast

end Monitor

end LearnApue.Foundation
