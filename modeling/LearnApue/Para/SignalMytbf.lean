import LearnApue.Foundation.Refinement
import LearnApue.Para.Mytbf

set_option autoImplicit false

/-!
# A token bucket refilled by a signal handler

`signal/mytbf/mytbf.c`: one thread of control fetches and returns tokens, and the
handler of `SIGALRM` refills the bucket between any two of its loads and stores.
`me->token -= n` and `me->token += size` are a load and a store each, so what the
handler adds between the two is overwritten.  The bucket still is the bucket of
`mytbf_mt/mytbf.c`, whose calls are atomic, with those visits of the handler left
out.
-/

namespace LearnApue.Para

open LearnApue.Foundation LearnApue.Foundation.EventMachine

/-! ## The program and its handler -/

/-- Where the program stands: the next load or store of the call it is in. -/
inductive MytbfPc where
  | idle
  /-- `while (me->token <= 0)`. -/
  | testing (size : Int)
  /-- The test failed and `pause()` is not yet called. -/
  | beforePause (size : Int)
  | pausing (size : Int)
  /-- `n = min(me->token, size)`. -/
  | choosing (size : Int)
  /-- The load of `me->token -= n`. -/
  | taking (size n : Int)
  /-- The store of `me->token -= n`. -/
  | storing (size n loaded : Int)
  /-- The load of `me->token += size`. -/
  | adding (size : Int)
  /-- The store of `me->token += size`. -/
  | added (size loaded : Int)
  /-- `if (me->token > me->burst)`. -/
  | comparing (size : Int)
  /-- `me->token = me->burst`. -/
  | cutting (size : Int)
deriving DecidableEq, Repr

/-- A bucket, the program that uses it, and the calls that returned. -/
structure SignalMytbf where
  bucket : MytbfSt
  pc : MytbfPc
  log : List (MytbfCall × MytbfResult)
  fault : Bool
deriving DecidableEq, Repr

/-- What happens next: the program calls, goes on, or the signal arrives. -/
inductive SignalMytbfEvent where
  | fetchtoken (size : Int)
  | returntoken (size : Int)
  | advance
  | alarm
deriving DecidableEq, Repr

namespace SignalMytbf

def goto (s : SignalMytbf) (pc : MytbfPc) : SignalMytbf := { s with pc := pc }

def store (s : SignalMytbf) (token : Int) : SignalMytbf :=
  { s with bucket := { s.bucket with token := token } }

/-- A call returns. -/
def finish (s : SignalMytbf) (call : MytbfCall) (result : MytbfResult) : SignalMytbf :=
  { s with pc := .idle, log := s.log ++ [(call, result)] }

/-- A signed overflow: nothing is defined afterwards. -/
def overflow (s : SignalMytbf) : SignalMytbf := { s with fault := true }

end SignalMytbf

/-- The bucket right after `mytbf_init`. -/
def signalMytbfStart (cps burst : Int) : SignalMytbf := ⟨mytbfInit cps burst, .idle, [], false⟩

/-- `pause()` returns once the handler has run. -/
def MytbfPc.wake : MytbfPc → MytbfPc
  | .pausing size => .testing size
  | pc => pc

/-- `alrm_handler` for one bucket. -/
def alrmHandler (s : SignalMytbf) : SignalMytbf :=
  match addTokens s.bucket s.bucket.cps with
  | none => s.overflow
  | some next => { s with bucket := next, pc := s.pc.wake }

/-- The next load or store of the call the program is in. -/
def SignalMytbf.advance (s : SignalMytbf) : Option SignalMytbf :=
  match s.pc with
  | .idle => none
  | .testing size => some (s.goto (if s.bucket.token ≤ 0 then .beforePause size else .choosing size))
  | .beforePause size => some (s.goto (.pausing size))
  | .pausing _ => none
  | .choosing size => some (s.goto (.taking size (minInt s.bucket.token size)))
  | .taking size n => some (s.goto (.storing size n s.bucket.token))
  | .storing size n loaded =>
      some ((s.store (loaded - n)).finish (.fetchtoken size) (.tokens n))
  | .adding size => some (s.goto (.added size s.bucket.token))
  | .added size loaded =>
      match toInt? (loaded + size) with
      | none => some s.overflow
      | some token => some ((s.store token).goto (.comparing size))
  | .comparing size =>
      if s.bucket.token > s.bucket.burst then some (s.goto (.cutting size))
      else some (s.finish (.returntoken size) (.tokens size))
  | .cutting size =>
      some ((s.store s.bucket.burst).finish (.returntoken size) (.tokens size))

/-- The start of a call: `if (size <= 0) return -EINVAL;` -/
def SignalMytbf.enter (s : SignalMytbf) (call : MytbfCall) (size : Int) (pc : MytbfPc) :
    Option SignalMytbf :=
  if s.pc = .idle then
    some (if size ≤ 0 then s.finish call .einval else s.goto pc)
  else none

def signalMytbfStep (s : SignalMytbf) (event : SignalMytbfEvent) : Option SignalMytbf :=
  if s.fault then none
  else
    match event with
    | .fetchtoken size => s.enter (.fetchtoken size) size (.testing size)
    | .returntoken size => s.enter (.returntoken size) size (.adding size)
    | .advance => s.advance
    | .alarm => some (alrmHandler s)

/-! ## The bucket it stands for -/

/-- A bucket whose calls are atomic: one call that ends, with its result. -/
def bucketStep (me : MytbfSt) (entry : MytbfCall × MytbfResult) : Option MytbfSt :=
  match mytbfPass entry.1 me with
  | .done next result _ => if result = entry.2 then some next else none
  | _ => none

/-- The tokens of a bucket between a load and its store are those that were loaded,
and what a return has not cut yet does not count. -/
def SignalMytbf.tokens (s : SignalMytbf) : Int :=
  match s.pc with
  | .storing _ _ loaded => loaded
  | .added _ loaded => loaded
  | .comparing _ => min s.bucket.token s.bucket.burst
  | .cutting _ => min s.bucket.token s.bucket.burst
  | _ => s.bucket.token

/-- The bucket as the calls that took effect left it. -/
def SignalMytbf.effective (s : SignalMytbf) : MytbfSt := { s.bucket with token := s.tokens }

/-- The program is between a load and the store that overwrites what is added there. -/
def MytbfPc.overwriting : MytbfPc → Bool
  | .storing _ _ _ => true
  | .added _ _ => true
  | _ => false

/-- The call that takes effect in a step.  A fetch and a return do so when they
store, a visit of the handler at once, unless its tokens are overwritten. -/
def SignalMytbf.takesEffect (s : SignalMytbf) : SignalMytbfEvent → List (MytbfCall × MytbfResult)
  | .fetchtoken size => if size ≤ 0 then [(.fetchtoken size, .einval)] else []
  | .returntoken size => if size ≤ 0 then [(.returntoken size, .einval)] else []
  | .alarm => if s.pc.overwriting then [] else [(.tick, .ticked)]
  | .advance =>
      match s.pc with
      | .storing _ n _ => [(.fetchtoken n, .tokens n)]
      | .added size _ => [(.returntoken size, .tokens size)]
      | _ => []

/-! ## What a step does -/

/-- The tokens at each place of the program.  Only a return that has not cut yet
holds more than the burst. -/
def PcOk (cps burst token : Int) : MytbfPc → Prop
  | .choosing size => 1 ≤ size ∧ 1 ≤ token ∧ token ≤ burst
  | .taking size n => 1 ≤ n ∧ n ≤ size ∧ n ≤ token ∧ token ≤ burst
  | .storing size n loaded => 1 ≤ n ∧ n ≤ size ∧ n ≤ loaded ∧ loaded ≤ burst ∧ token ≤ burst
  | .testing size => 1 ≤ size ∧ token ≤ burst
  | .beforePause size => 1 ≤ size ∧ token ≤ burst
  | .pausing size => 1 ≤ size ∧ token ≤ burst
  | .adding size => 1 ≤ size ∧ burst + size + cps ≤ intMax ∧ token ≤ burst
  | .added size loaded =>
      1 ≤ size ∧ burst + size + cps ≤ intMax ∧ 0 ≤ loaded ∧ loaded ≤ burst ∧ token ≤ burst
  | .comparing size => 1 ≤ size ∧ burst + size + cps ≤ intMax ∧ token ≤ burst + size
  | .cutting size =>
      1 ≤ size ∧ burst + size + cps ≤ intMax ∧ burst ≤ token ∧ token ≤ burst + size
  | .idle => token ≤ burst

/-- The invariant of the bucket, its handler and its program. -/
structure SignalMytbfOk (cps burst : Int) (s : SignalMytbf) : Prop where
  fault : s.fault = false
  sameCps : s.bucket.cps = cps
  sameBurst : s.bucket.burst = burst
  nonneg : 0 ≤ s.bucket.token
  pc : PcOk cps burst s.bucket.token s.pc

/-- A return keeps the sum below `INT_MAX` also when the handler adds to it before
the cut. -/
def SignalFits (cps burst : Int) : SignalMytbfEvent → Prop
  | .returntoken size => burst + size + cps ≤ intMax
  | _ => True

instance (cps burst : Int) : (event : SignalMytbfEvent) → Decidable (SignalFits cps burst event)
  | .returntoken _ => inferInstanceAs (Decidable (_ ≤ _))
  | .fetchtoken _ => inferInstanceAs (Decidable True)
  | .advance => inferInstanceAs (Decidable True)
  | .alarm => inferInstanceAs (Decidable True)

/-- An addition that does not overflow is cut to the burst. -/
theorem addTokens_eq {me : MytbfSt} {amount : Int} (htoken : 0 ≤ me.token) (hpos : 0 ≤ amount)
    (hfits : me.token + amount ≤ intMax) :
    addTokens me amount = some { me with token := min (me.token + amount) me.burst } := by
  have hin : InInt (me.token + amount) := ⟨by unfold intMin; omega, hfits⟩
  unfold addTokens
  rw [toInt?_eq_some hin, Option.map_some]
  congr 2
  split
  · rename_i hmore
    exact (min_eq_right (le_of_lt hmore)).symm
  · rename_i hless
    exact (min_eq_left (not_lt.mp hless)).symm

theorem bucketStep_tick {me : MytbfSt} (htoken : 0 ≤ me.token) (hpos : 0 ≤ me.cps)
    (hfits : me.token + me.cps ≤ intMax) :
    bucketStep me (.tick, .ticked) =
      some { me with token := min (me.token + me.cps) me.burst } := by
  simp only [bucketStep, mytbfPass, pthreadHandler, refill, addTokens_eq htoken hpos hfits,
    if_true]

theorem bucketStep_fetch {me : MytbfSt} {n : Int} (hpos : 1 ≤ n) (hle : n ≤ me.token) :
    bucketStep me (.fetchtoken n, .tokens n) = some { me with token := me.token - n } := by
  have hmin : minInt me.token n = n := by
    rw [minInt_eq_min]
    exact min_eq_right hle
  simp only [bucketStep, mytbfPass, mytbfFetchtoken]
  rw [if_neg (by omega), if_neg (by omega), hmin]
  simp

theorem bucketStep_return {me : MytbfSt} {size : Int} (hpos : 1 ≤ size) (htoken : 0 ≤ me.token)
    (hfits : me.token + size ≤ intMax) :
    bucketStep me (.returntoken size, .tokens size) =
      some { me with token := min (me.token + size) me.burst } := by
  simp only [bucketStep, mytbfPass, mytbfReturntoken]
  rw [if_neg (by omega)]
  simp only [refill, addTokens_eq htoken (by omega : 0 ≤ size) hfits, if_true]

theorem bucketStep_einval {me : MytbfSt} {size : Int} (h : size ≤ 0) :
    bucketStep me (.fetchtoken size, .einval) = some me ∧
      bucketStep me (.returntoken size, .einval) = some me := by
  constructor
  · simp [bucketStep, mytbfPass, mytbfFetchtoken, h]
  · simp [bucketStep, mytbfPass, mytbfReturntoken, h]

/-- The tokens stay within the burst, but for a return that has not cut yet, which
holds at most its size more. -/
theorem SignalMytbfOk.token_le {cps burst : Int} {s : SignalMytbf} (hok : SignalMytbfOk cps burst s) :
    s.bucket.token ≤ burst ∨
      ∃ size, (s.pc = .comparing size ∨ s.pc = .cutting size) ∧ s.bucket.token ≤ burst + size ∧
        burst + size + cps ≤ intMax := by
  have hpc := hok.pc
  cases h : s.pc with
  | comparing size =>
    rw [h] at hpc
    exact Or.inr ⟨size, Or.inl rfl, hpc.2.2, hpc.2.1⟩
  | cutting size =>
    rw [h] at hpc
    exact Or.inr ⟨size, Or.inr rfl, hpc.2.2.2, hpc.2.1⟩
  | _ =>
    rw [h] at hpc
    simp only [PcOk] at hpc
    exact Or.inl (by omega)

/-- The handler never overflows. -/
theorem SignalMytbfOk.handler_fits {cps burst : Int} (hmax : burst + cps ≤ intMax)
    {s : SignalMytbf} (hok : SignalMytbfOk cps burst s) :
    s.bucket.token + s.bucket.cps ≤ intMax := by
  rw [hok.sameCps]
  rcases hok.token_le with h | ⟨size, -, hle, hfits⟩
  · omega
  · omega

/-- The visit of the handler as one atomic step, or as none where it is overwritten. -/
theorem alrmHandler_refines {cps burst : Int} (hcps : 0 ≤ cps) (hburst : 0 ≤ burst)
    (hmax : burst + cps ≤ intMax) {s : SignalMytbf} (hok : SignalMytbfOk cps burst s) :
    SignalMytbfOk cps burst (alrmHandler s) ∧
      follow bucketStep s.effective (s.takesEffect .alarm) = some (alrmHandler s).effective := by
  obtain ⟨⟨ownCps, ownBurst, token⟩, pc, log, fault⟩ := s
  obtain ⟨hfault, rfl, rfl, hnonneg, hpc⟩ := id hok
  have hfits := hok.handler_fits hmax
  simp only at hfault hnonneg hpc hfits hcps hburst hmax
  subst hfault
  have hadd := @addTokens_eq ⟨ownCps, ownBurst, token⟩ _ hnonneg hcps hfits
  have hatomic := @bucketStep_tick ⟨ownCps, ownBurst, token⟩ hnonneg hcps hfits
  have hcut := @bucketStep_tick ⟨ownCps, ownBurst, min token ownBurst⟩ (by simp only; omega) hcps
    (by simp only; omega)
  simp only at hadd hatomic hcut
  simp only [alrmHandler, hadd]
  cases pc with
  | storing size n loaded =>
    simp only [PcOk] at hpc
    exact ⟨⟨rfl, rfl, rfl, by simp only; omega, by simp only [MytbfPc.wake, PcOk]; omega⟩, rfl⟩
  | added size loaded =>
    simp only [PcOk] at hpc
    exact ⟨⟨rfl, rfl, rfl, by simp only; omega, by simp only [MytbfPc.wake, PcOk]; omega⟩, rfl⟩
  | comparing size =>
    simp only [PcOk] at hpc
    refine ⟨⟨rfl, rfl, rfl, by simp only; omega, by simp only [MytbfPc.wake, PcOk]; omega⟩, ?_⟩
    simp only [SignalMytbf.takesEffect, MytbfPc.overwriting, SignalMytbf.effective,
      SignalMytbf.tokens, MytbfPc.wake, Bool.false_eq_true, if_false, follow_singleton, hcut]
    congr 2
    omega
  | cutting size =>
    simp only [PcOk] at hpc
    refine ⟨⟨rfl, rfl, rfl, by simp only; omega, by simp only [MytbfPc.wake, PcOk]; omega⟩, ?_⟩
    simp only [SignalMytbf.takesEffect, MytbfPc.overwriting, SignalMytbf.effective,
      SignalMytbf.tokens, MytbfPc.wake, Bool.false_eq_true, if_false, follow_singleton, hcut]
    congr 2
    omega
  | _ =>
    simp only [PcOk] at hpc
    refine ⟨⟨rfl, rfl, rfl, by simp only; omega, by simp only [MytbfPc.wake, PcOk]; omega⟩, ?_⟩
    simp only [SignalMytbf.takesEffect, MytbfPc.overwriting, SignalMytbf.effective,
      SignalMytbf.tokens, MytbfPc.wake, Bool.false_eq_true, if_false, follow_singleton, hatomic]

/-- The next load or store of the program as the call that takes effect there. -/
theorem advance_refines {cps burst : Int} (hcps : 0 ≤ cps) (hburst : 0 ≤ burst)
    {s next : SignalMytbf} (hok : SignalMytbfOk cps burst s) (h : s.advance = some next) :
    SignalMytbfOk cps burst next ∧
      follow bucketStep s.effective (s.takesEffect .advance) = some next.effective := by
  obtain ⟨⟨ownCps, ownBurst, token⟩, pc, log, fault⟩ := s
  obtain ⟨hfault, rfl, rfl, hnonneg, hpc⟩ := hok
  simp only at hfault hnonneg hpc hcps hburst
  subst hfault
  cases pc with
  | idle => cases h
  | testing size =>
    simp only [PcOk] at hpc
    cases h
    simp only [SignalMytbf.goto]
    split
    · exact ⟨⟨rfl, rfl, rfl, hnonneg, by simp only [PcOk]; omega⟩, rfl⟩
    · exact ⟨⟨rfl, rfl, rfl, hnonneg, by simp only [PcOk]; omega⟩, rfl⟩
  | beforePause size =>
    cases h
    exact ⟨⟨rfl, rfl, rfl, hnonneg, hpc⟩, rfl⟩
  | pausing size => cases h
  | choosing size =>
    simp only [PcOk] at hpc
    cases h
    have hle : minInt token size ≤ token ∧ minInt token size ≤ size ∧ 1 ≤ minInt token size := by
      rw [minInt_eq_min]
      omega
    exact ⟨⟨rfl, rfl, rfl, hnonneg, by simp only [PcOk, SignalMytbf.goto]; omega⟩, rfl⟩
  | taking size n =>
    simp only [PcOk] at hpc
    cases h
    exact ⟨⟨rfl, rfl, rfl, hnonneg, by simp only [PcOk, SignalMytbf.goto]; omega⟩, rfl⟩
  | storing size n loaded =>
    simp only [PcOk] at hpc
    cases h
    refine ⟨⟨rfl, rfl, rfl, ?_, ?_⟩, ?_⟩
    · show 0 ≤ loaded - n
      omega
    · show loaded - n ≤ ownBurst
      omega
    · exact (follow_singleton _ _).trans (bucketStep_fetch hpc.1 hpc.2.2.1)
  | adding size =>
    simp only [PcOk] at hpc
    cases h
    exact ⟨⟨rfl, rfl, rfl, hnonneg, by simp only [PcOk, SignalMytbf.goto]; omega⟩, rfl⟩
  | added size loaded =>
    simp only [PcOk] at hpc
    have hin : InInt (loaded + size) := ⟨by unfold intMin; omega, by omega⟩
    simp only [SignalMytbf.advance, toInt?_eq_some hin, Option.some.injEq] at h
    subst h
    refine ⟨⟨rfl, rfl, rfl, ?_, ?_⟩, ?_⟩
    · show 0 ≤ loaded + size
      omega
    · show 1 ≤ size ∧ ownBurst + size + ownCps ≤ intMax ∧ loaded + size ≤ ownBurst + size
      omega
    · exact (follow_singleton _ _).trans
        (bucketStep_return hpc.1 hpc.2.2.1 (by show loaded + size ≤ intMax; omega))
  | comparing size =>
    simp only [PcOk] at hpc
    simp only [SignalMytbf.advance] at h
    split at h
    · rename_i hmore
      cases h
      exact ⟨⟨rfl, rfl, rfl, hnonneg, by simp only [PcOk, SignalMytbf.goto]; omega⟩, rfl⟩
    · rename_i hless
      cases h
      refine ⟨⟨rfl, rfl, rfl, hnonneg, by show token ≤ ownBurst; omega⟩, ?_⟩
      simp only [SignalMytbf.takesEffect, SignalMytbf.effective, SignalMytbf.tokens,
        SignalMytbf.finish, follow_nil, min_eq_left (not_lt.mp hless)]
  | cutting size =>
    simp only [PcOk] at hpc
    cases h
    refine ⟨⟨rfl, rfl, rfl, hburst, le_refl ownBurst⟩, ?_⟩
    simp only [SignalMytbf.takesEffect, SignalMytbf.effective, SignalMytbf.tokens,
      SignalMytbf.finish, SignalMytbf.store, follow_nil, min_eq_right hpc.2.2.1]

/-- A call that starts: it is refused at once, or nothing has taken effect yet. -/
theorem enter_refines {cps burst : Int} {s next : SignalMytbf} {call : MytbfCall} {size : Int}
    {pc : MytbfPc} (hok : SignalMytbfOk cps burst s) (h : s.enter call size pc = some next)
    (heinval : size ≤ 0 → bucketStep s.effective (call, .einval) = some s.effective)
    (hpc : 1 ≤ size → s.bucket.token ≤ burst → PcOk cps burst s.bucket.token pc)
    (hsame : (s.goto pc).effective = s.bucket) :
    SignalMytbfOk cps burst next ∧
      follow bucketStep s.effective (if size ≤ 0 then [(call, .einval)] else []) =
        some next.effective := by
  unfold SignalMytbf.enter at h
  split at h
  · rename_i hidle
    have heffective : s.effective = s.bucket := by
      simp only [SignalMytbf.effective, SignalMytbf.tokens, hidle]
    have hle : s.bucket.token ≤ burst := by
      have hown := hok.pc
      rw [hidle] at hown
      exact hown
    cases h
    split
    · rename_i hsize
      refine ⟨⟨hok.fault, hok.sameCps, hok.sameBurst, hok.nonneg, hle⟩, ?_⟩
      rw [follow_singleton, heinval hsize, heffective]
      rfl
    · rename_i hsize
      refine ⟨⟨hok.fault, hok.sameCps, hok.sameBurst, hok.nonneg, hpc (by omega) hle⟩, ?_⟩
      rw [follow_nil, heffective, hsame]
  · cases h

/-- The bucket with the handler of a signal refines the bucket with atomic calls. -/
theorem signalMytbf_refines {cps burst : Int} (hcps : 0 ≤ cps) (hburst : 0 ≤ burst)
    (hmax : burst + cps ≤ intMax) :
    Refines signalMytbfStep bucketStep (SignalMytbfOk cps burst)
      (fun _ event => SignalFits cps burst event) SignalMytbf.effective
      SignalMytbf.takesEffect := by
  intro s event next hok hfits h
  unfold signalMytbfStep at h
  rw [if_neg (by rw [hok.fault]; exact Bool.false_ne_true)] at h
  cases event with
  | fetchtoken size =>
    exact enter_refines hok h (fun hsize => (bucketStep_einval hsize).1)
      (fun hpos hle => ⟨hpos, hle⟩) rfl
  | returntoken size =>
    exact enter_refines hok h (fun hsize => (bucketStep_einval hsize).2)
      (fun hpos hle => ⟨hpos, hfits, hle⟩) rfl
  | advance => exact advance_refines hcps hburst hok h
  | alarm =>
    cases h
    exact alrmHandler_refines hcps hburst hmax hok

/-! ## Runs -/

theorem signalMytbfOk_start {cps burst : Int} (hburst : 0 ≤ burst) :
    SignalMytbfOk cps burst (signalMytbfStart cps burst) :=
  ⟨rfl, rfl, rfl, le_refl 0, hburst⟩

/-- The bucket, the program and its log after a run. -/
def signalMytbfRun (cps burst : Int) (events : List SignalMytbfEvent) : SignalMytbf :=
  run signalMytbfStep (signalMytbfStart cps burst) events

/-- The calls that take effect in a run, in their order. -/
def effects (s : SignalMytbf) (events : List SignalMytbfEvent) :
    List (MytbfCall × MytbfResult) :=
  trace signalMytbfStep SignalMytbf.takesEffect s events

/-- The tokens that calls handed out. -/
def handedOut (calls : List (MytbfCall × MytbfResult)) : Int :=
  (calls.map fun entry => fetchedBy entry.1 entry.2).sum

/-- The tokens that calls took back. -/
def takenBack (calls : List (MytbfCall × MytbfResult)) : Int :=
  (calls.map fun entry => returnedBy entry.1 entry.2).sum

/-- The tokens of a return that stored and has not ended. -/
def MytbfPc.returning : MytbfPc → Int
  | .comparing size => size
  | .cutting size => size
  | _ => 0

/-- The visits of the handler among calls. -/
def visits (calls : List (MytbfCall × MytbfResult)) : Nat := calls.countP fun entry => entry.1 = .tick

/-- The alarms that arrived in a part of a run. -/
def alarms (s : SignalMytbf) (events : List SignalMytbfEvent) : Nat :=
  (history signalMytbfStep s events).countP fun event => event = .alarm

/-- The alarms that arrived between a load and the store that overwrites them. -/
def overwritten (s : SignalMytbf) (events : List SignalMytbfEvent) : Nat :=
  (trace signalMytbfStep (fun s event => if event = .alarm ∧ s.pc.overwriting then [()] else [])
    s events).length

theorem signalFits_meets {cps burst : Int} {events : List SignalMytbfEvent}
    (hfits : ∀ event ∈ events, SignalFits cps burst event) (s : SignalMytbf) :
    Meets signalMytbfStep (fun _ event => SignalFits cps burst event) s events :=
  meets_of_forall fun before event rest _ hevents _ =>
    hfits event (by simp [hevents])

/-- The log grows by calls with allowed results, and up to a return that has not
ended it hands out and takes back what the calls that take effect do. -/
def LogGrows (burst : Int) (s next : SignalMytbf) (calls : List (MytbfCall × MytbfResult)) :
    Prop :=
  ∃ entries, next.log = s.log ++ entries ∧
    (∀ entry ∈ entries, ResultAllowed burst entry.1 entry.2) ∧
    handedOut entries = handedOut calls ∧
    takenBack entries + next.pc.returning = s.pc.returning + takenBack calls

theorem LogGrows.of_quiet {burst : Int} {s next : SignalMytbf}
    {calls : List (MytbfCall × MytbfResult)} (hlog : next.log = s.log)
    (hout : handedOut calls = 0) (hback : takenBack calls = 0)
    (hreturning : next.pc.returning = s.pc.returning) : LogGrows burst s next calls := by
  refine ⟨[], by simp [hlog], fun _ hentry => absurd hentry List.not_mem_nil, hout.symm, ?_⟩
  rw [hback, hreturning]
  simp [takenBack]

theorem LogGrows.of_entry {burst : Int} {s next : SignalMytbf}
    {calls : List (MytbfCall × MytbfResult)} {call : MytbfCall} {result : MytbfResult}
    (hlog : next.log = s.log ++ [(call, result)]) (hallowed : ResultAllowed burst call result)
    (hout : fetchedBy call result = handedOut calls)
    (hback : returnedBy call result + next.pc.returning = s.pc.returning + takenBack calls) :
    LogGrows burst s next calls := by
  refine ⟨[(call, result)], hlog, ?_, ?_, ?_⟩
  · intro entry hentry
    rw [List.mem_singleton.mp hentry]
    exact hallowed
  · simpa [handedOut] using hout
  · simpa [takenBack] using hback

theorem enter_log {burst : Int} {s next : SignalMytbf} {call : MytbfCall} {size : Int}
    {pc : MytbfPc} (h : s.enter call size pc = some next) (hpc : pc.returning = 0)
    (hallowed : ResultAllowed burst call .einval) :
    LogGrows burst s next (if size ≤ 0 then [(call, .einval)] else []) := by
  unfold SignalMytbf.enter at h
  split at h
  · rename_i hidle
    cases h
    split
    · refine .of_entry rfl hallowed (by simp [handedOut]) ?_
      simp [takenBack, SignalMytbf.finish, hidle, MytbfPc.returning]
    · refine .of_quiet rfl rfl rfl ?_
      rw [hidle]
      exact hpc
  · cases h

theorem alrmHandler_log {burst : Int} (s : SignalMytbf) :
    LogGrows burst s (alrmHandler s) (s.takesEffect .alarm) := by
  have hlog : (alrmHandler s).log = s.log ∧ (alrmHandler s).pc.returning = s.pc.returning := by
    unfold alrmHandler
    cases addTokens s.bucket s.bucket.cps with
    | none => exact ⟨rfl, rfl⟩
    | some refilled => exact ⟨rfl, by cases s.pc <;> rfl⟩
  refine .of_quiet hlog.1 ?_ ?_ hlog.2
  · simp only [SignalMytbf.takesEffect]
    split <;> rfl
  · simp only [SignalMytbf.takesEffect]
    split <;> rfl

theorem advance_log {cps burst : Int} (hcps : 0 ≤ cps) {s next : SignalMytbf}
    (hok : SignalMytbfOk cps burst s) (h : s.advance = some next) :
    LogGrows burst s next (s.takesEffect .advance) := by
  have hpc := hok.pc
  obtain ⟨bucket, pc, log, fault⟩ := s
  cases pc with
  | idle => cases h
  | pausing size => cases h
  | testing size =>
    cases h
    refine .of_quiet rfl rfl rfl ?_
    simp only [SignalMytbf.goto]
    split <;> rfl
  | storing size n loaded =>
    simp only [PcOk] at hpc
    cases h
    exact .of_entry rfl ⟨hpc.1, by omega⟩ (add_zero n).symm rfl
  | added size loaded =>
    simp only [PcOk] at hpc
    have hin : InInt (loaded + size) := ⟨by unfold intMin; omega, by omega⟩
    simp only [SignalMytbf.advance, toInt?_eq_some hin, Option.some.injEq] at h
    subst h
    refine ⟨[], (List.append_nil _).symm, fun _ hentry => absurd hentry List.not_mem_nil, rfl, ?_⟩
    simp [takenBack, SignalMytbf.takesEffect, MytbfPc.returning, SignalMytbf.goto, returnedBy]
  | comparing size =>
    simp only [SignalMytbf.advance] at h
    split at h
    · cases h
      exact .of_quiet rfl rfl rfl rfl
    · cases h
      exact .of_entry rfl trivial rfl rfl
  | cutting size =>
    cases h
    exact .of_entry rfl trivial rfl rfl
  | _ =>
    cases h
    exact .of_quiet rfl rfl rfl rfl

theorem signalMytbfStep_log {cps burst : Int} (hcps : 0 ≤ cps) {s next : SignalMytbf}
    {event : SignalMytbfEvent} (hok : SignalMytbfOk cps burst s)
    (h : signalMytbfStep s event = some next) : LogGrows burst s next (s.takesEffect event) := by
  unfold signalMytbfStep at h
  rw [if_neg (by rw [hok.fault]; exact Bool.false_ne_true)] at h
  cases event with
  | fetchtoken size => exact enter_log h rfl trivial
  | returntoken size => exact enter_log h rfl trivial
  | advance => exact advance_log hcps hok h
  | alarm =>
    cases h
    exact alrmHandler_log s

theorem handedOut_append (first rest : List (MytbfCall × MytbfResult)) :
    handedOut (first ++ rest) = handedOut first + handedOut rest := by
  simp [handedOut]

theorem takenBack_append (first rest : List (MytbfCall × MytbfResult)) :
    takenBack (first ++ rest) = takenBack first + takenBack rest := by
  simp [takenBack]

/-- What a part of a run hands out and takes back, by its log and by the calls that
take effect in it. -/
theorem log_of_effects {cps burst : Int} (hcps : 0 ≤ cps) (hburst : 0 ≤ burst)
    (hmax : burst + cps ≤ intMax) {s : SignalMytbf} (hok : SignalMytbfOk cps burst s)
    {events : List SignalMytbfEvent} (hfits : ∀ event ∈ events, SignalFits cps burst event) :
    handedOut (run signalMytbfStep s events).log = handedOut s.log + handedOut (effects s events) ∧
      takenBack (run signalMytbfStep s events).log +
          (run signalMytbfStep s events).pc.returning =
        takenBack s.log + s.pc.returning + takenBack (effects s events) := by
  have hmeets := signalFits_meets hfits s
  have hrefines := signalMytbf_refines hcps hburst hmax
  constructor
  · refine measure_trace (fun s => handedOut s.log) _ ?_ hmeets hok
    intro s event next hok hevent h
    obtain ⟨entries, hlog, -, hout, -⟩ := signalMytbfStep_log hcps hok h
    refine ⟨(hrefines s event next hok hevent h).1, ?_⟩
    rw [hlog, handedOut_append, hout]
    rfl
  · refine measure_trace (fun s => takenBack s.log + s.pc.returning) _ ?_ hmeets hok
    intro s event next hok hevent h
    obtain ⟨entries, hlog, -, -, hback⟩ := signalMytbfStep_log hcps hok h
    refine ⟨(hrefines s event next hok hevent h).1, ?_⟩
    rw [hlog, takenBack_append, add_assoc, hback, add_assoc]
    rfl

/-- Every alarm is a visit that takes effect or is overwritten. -/
theorem visits_add_overwritten (s : SignalMytbf) (events : List SignalMytbfEvent) :
    visits (effects s events) + overwritten s events = alarms s events := by
  unfold effects overwritten alarms
  induction events generalizing s with
  | nil => rfl
  | cons event rest ih =>
    cases h : signalMytbfStep s event with
    | none => rw [trace_cons_of_none h, trace_cons_of_none h, history_cons_of_none _ h, ih]
    | some next =>
      rw [trace_cons_of_some h, trace_cons_of_some h, history_cons_of_some _ h, List.length_append,
        List.countP_cons, ← ih next]
      unfold visits
      rw [List.countP_append]
      have hfirst : (s.takesEffect event).countP (fun entry => entry.1 = .tick) +
          (if event = .alarm ∧ s.pc.overwriting then [()] else []).length =
          if event = .alarm then 1 else 0 := by
        cases event with
        | fetchtoken size =>
          simp only [SignalMytbf.takesEffect]
          split <;> simp
        | returntoken size =>
          simp only [SignalMytbf.takesEffect]
          split <;> simp
        | alarm =>
          simp only [SignalMytbf.takesEffect]
          cases s.pc.overwriting <;> simp
        | advance =>
          simp only [SignalMytbf.takesEffect]
          split <;> simp
      simp only [decide_eq_true_eq] at hfirst ⊢
      omega

/-- Over atomic calls the bucket keeps its bounds and gains no more than the visits
and the returns put in and loses what is handed out. -/
theorem bucket_follow {cps burst : Int} (hcps : 0 ≤ cps) {calls : List (MytbfCall × MytbfResult)}
    {me final : MytbfSt} (hok : BucketOk cps burst me)
    (h : follow bucketStep me calls = some final) :
    BucketOk cps burst final ∧
      final.token ≤ me.token + visits calls * cps + takenBack calls - handedOut calls := by
  induction calls generalizing me with
  | nil =>
    cases h
    exact ⟨hok, by simp [visits, takenBack, handedOut]⟩
  | cons entry rest ih =>
    rw [follow_cons] at h
    obtain ⟨next, hnext, hrest⟩ := Option.bind_eq_some_iff.mp h
    obtain ⟨call, result⟩ := entry
    unfold bucketStep at hnext
    split at hnext
    · rename_i after given notify hdone
      split at hnext
      · rename_i hresult
        cases hnext
        subst hresult
        obtain ⟨hnextOk, -, hgain, -⟩ := mytbfPass_done hcps hok hdone
        obtain ⟨hfinal, htoken⟩ := ih hnextOk hrest
        refine ⟨hfinal, ?_⟩
        have hback : takenBack ((call, given) :: rest) = returnedBy call given + takenBack rest := by
          simp [takenBack]
        have hout : handedOut ((call, given) :: rest) = fetchedBy call given + handedOut rest := by
          simp [handedOut]
        have hvisits : (visits ((call, given) :: rest) : Int) * cps =
            visits rest * cps + if call = .tick then cps else 0 := by
          unfold visits
          rw [List.countP_cons]
          split <;> simp_all [add_mul]
        simp only at hgain
        rw [hback, hout, hvisits]
        omega
      · cases hnext
    · cases hnext

theorem SignalMytbfOk.effective {cps burst : Int} {s : SignalMytbf} (hburst : 0 ≤ burst)
    (hok : SignalMytbfOk cps burst s) : BucketOk cps burst s.effective := by
  obtain ⟨⟨ownCps, ownBurst, token⟩, pc, log, fault⟩ := s
  obtain ⟨hfault, rfl, rfl, hnonneg, hpc⟩ := hok
  simp only at hnonneg hpc hburst
  have htokens : 0 ≤ SignalMytbf.tokens ⟨⟨ownCps, ownBurst, token⟩, pc, log, fault⟩ ∧
      SignalMytbf.tokens ⟨⟨ownCps, ownBurst, token⟩, pc, log, fault⟩ ≤ ownBurst := by
    cases pc with
    | _ =>
      simp only [PcOk] at hpc
      simp only [SignalMytbf.tokens]
      omega
  exact ⟨rfl, rfl, htokens.1, htokens.2⟩

/-- The invariant and the results of the calls after every run. -/
theorem signalMytbfRun_ok {cps burst : Int} (hcps : 0 ≤ cps) (hburst : 0 ≤ burst)
    (hmax : burst + cps ≤ intMax) {events : List SignalMytbfEvent}
    (hfits : ∀ event ∈ events, SignalFits cps burst event) :
    SignalMytbfOk cps burst (signalMytbfRun cps burst events) ∧
      ∀ entry ∈ (signalMytbfRun cps burst events).log, ResultAllowed burst entry.1 entry.2 := by
  refine (signalFits_meets hfits (signalMytbfStart cps burst)).run_induction
    (fun s => SignalMytbfOk cps burst s ∧ ∀ entry ∈ s.log, ResultAllowed burst entry.1 entry.2)
    ?_ ⟨signalMytbfOk_start hburst, fun _ hentry => absurd hentry List.not_mem_nil⟩
  rintro s event next ⟨hok, hlog⟩ hevent h
  obtain ⟨entries, hnext, hallowed, -, -⟩ := signalMytbfStep_log hcps hok h
  refine ⟨(signalMytbf_refines hcps hburst hmax s event next hok hevent h).1, ?_⟩
  intro entry hentry
  rw [hnext, List.mem_append] at hentry
  exact hentry.elim (hlog entry) (hallowed entry)

/-- A bucket that a signal handler refills between the loads and stores of the
program is a bucket with atomic calls.  In every run nothing overflows, the calls
that take effect are an accepted run of the atomic bucket that ends in the same
tokens, and they hand out and take back what the returned calls did; the handler's
visits among them are the alarms that were not overwritten. -/
theorem signalMytbf_atomic {cps burst : Int} (hcps : 0 ≤ cps) (hburst : 0 ≤ burst)
    (hmax : burst + cps ≤ intMax) (events : List SignalMytbfEvent)
    (hfits : ∀ event ∈ events, SignalFits cps burst event) :
    (signalMytbfRun cps burst events).fault = false ∧
    follow bucketStep (mytbfInit cps burst) (effects (signalMytbfStart cps burst) events) =
      some (signalMytbfRun cps burst events).effective ∧
    handedOut (effects (signalMytbfStart cps burst) events) =
      handedOut (signalMytbfRun cps burst events).log ∧
    takenBack (effects (signalMytbfStart cps burst) events) =
      takenBack (signalMytbfRun cps burst events).log +
        (signalMytbfRun cps burst events).pc.returning ∧
    visits (effects (signalMytbfStart cps burst) events) +
        overwritten (signalMytbfStart cps burst) events =
      alarms (signalMytbfStart cps burst) events := by
  have hstart := @signalMytbfOk_start cps burst hburst
  obtain ⟨hok, hfollow⟩ := (signalMytbf_refines hcps hburst hmax).run_of_meets
    (signalFits_meets hfits _) hstart
  obtain ⟨hout, hback⟩ := log_of_effects hcps hburst hmax hstart hfits
  refine ⟨hok.fault, hfollow, ?_, ?_, visits_add_overwritten _ _⟩
  · have hempty : handedOut (signalMytbfStart cps burst).log = 0 := rfl
    rw [hempty, zero_add] at hout
    exact hout.symm
  · have hempty : takenBack (signalMytbfStart cps burst).log = 0 ∧
        (signalMytbfStart cps burst).pc.returning = 0 := ⟨rfl, rfl⟩
    rw [hempty.1, hempty.2, add_zero, zero_add] at hback
    exact hback.symm

/-- Ten tokens a second: one alarm falls between the load and the store of a fetch and
is overwritten. -/
theorem signalMytbf_atomic_overwritten :
    visits (effects (signalMytbfStart 10 100)
        [.alarm, .fetchtoken 4, .advance, .advance, .advance, .alarm, .advance]) = 1 ∧
      follow bucketStep (mytbfInit 10 100) (effects (signalMytbfStart 10 100)
        [.alarm, .fetchtoken 4, .advance, .advance, .advance, .alarm, .advance]) =
      some (signalMytbfRun 10 100
        [.alarm, .fetchtoken 4, .advance, .advance, .advance, .alarm, .advance]).effective :=
  ⟨by decide +kernel, (signalMytbf_atomic (by omega) (by omega) (by decide)
    [.alarm, .fetchtoken 4, .advance, .advance, .advance, .alarm, .advance] (by decide)).2.1⟩

/-- The rate limit of the bucket in every part of every run, whatever the alarms
interrupt.  The bucket holds no more than its burst, but for the size of a return
that has not cut yet; a successful fetch hands out between one token and the smaller
of its size and the burst; and what a part of a run fetched exceeds what was returned
in it by at most the burst and one `cps` for every alarm that was not overwritten,
since the start by those alarms alone. -/
theorem signalMytbf_rate_limit {cps burst : Int} (hcps : 0 ≤ cps) (hburst : 0 ≤ burst)
    (hmax : burst + cps ≤ intMax) (events : List SignalMytbfEvent)
    (hfits : ∀ event ∈ events, SignalFits cps burst event) :
    (0 ≤ (signalMytbfRun cps burst events).bucket.token ∧
      (signalMytbfRun cps burst events).bucket.token ≤
        burst + (signalMytbfRun cps burst events).pc.returning) ∧
    (∀ entry ∈ (signalMytbfRun cps burst events).log, ResultAllowed burst entry.1 entry.2) ∧
    (∀ before segment rest, events = before ++ segment ++ rest →
      handedOut (signalMytbfRun cps burst (before ++ segment)).log -
          handedOut (signalMytbfRun cps burst before).log ≤
        burst + (alarms (signalMytbfRun cps burst before) segment -
            overwritten (signalMytbfRun cps burst before) segment) * cps +
          (takenBack (signalMytbfRun cps burst (before ++ segment)).log +
            (signalMytbfRun cps burst (before ++ segment)).pc.returning) -
          (takenBack (signalMytbfRun cps burst before).log +
            (signalMytbfRun cps burst before).pc.returning)) ∧
    handedOut (signalMytbfRun cps burst events).log ≤
      (alarms (signalMytbfStart cps burst) events -
          overwritten (signalMytbfStart cps burst) events) * cps +
        takenBack (signalMytbfRun cps burst events).log +
        (signalMytbfRun cps burst events).pc.returning := by
  have hrefines := signalMytbf_refines hcps hburst hmax
  have hreach : ∀ events, (∀ event ∈ events, SignalFits cps burst event) →
      SignalMytbfOk cps burst (signalMytbfRun cps burst events) := fun events hfits =>
    (signalMytbfRun_ok hcps hburst hmax hfits).1
  have hpart : ∀ (s : SignalMytbf) (segment : List SignalMytbfEvent), SignalMytbfOk cps burst s →
      (∀ event ∈ segment, SignalFits cps burst event) →
      handedOut (run signalMytbfStep s segment).log - handedOut s.log ≤
        s.effective.token + (alarms s segment - overwritten s segment) * cps +
          (takenBack (run signalMytbfStep s segment).log +
            (run signalMytbfStep s segment).pc.returning) -
          (takenBack s.log + s.pc.returning) := by
    intro s segment hok hfits
    obtain ⟨hafter, hfollow⟩ := hrefines.run_of_meets (signalFits_meets hfits s) hok
    obtain ⟨hfinal, htoken⟩ := bucket_follow hcps (hok.effective hburst) hfollow
    obtain ⟨hout, hback⟩ := log_of_effects hcps hburst hmax hok hfits
    have hvisits := visits_add_overwritten s segment
    have hcount : (alarms s segment : Int) - overwritten s segment = visits (effects s segment) := by
      omega
    have hnonneg := hfinal.nonneg
    have heffects : effects s segment =
      trace signalMytbfStep SignalMytbf.takesEffect s segment := rfl
    rw [hcount]
    rw [← heffects] at htoken
    omega
  refine ⟨⟨(hreach events hfits).nonneg, ?_⟩, ?_, ?_, ?_⟩
  · have hok := hreach events hfits
    have hpc := hok.pc
    cases h : (signalMytbfRun cps burst events).pc with
    | _ =>
      rw [h] at hpc
      simp only [PcOk] at hpc
      simp only [MytbfPc.returning]
      omega
  · exact (signalMytbfRun_ok hcps hburst hmax hfits).2
  · intro before segment rest hevents
    subst hevents
    have hbefore := hreach before fun event hevent => hfits event (by simp [hevent])
    have hrate := hpart _ segment hbefore fun event hevent => hfits event (by simp [hevent])
    have hheld := (hbefore.effective hburst).le
    have hrun : signalMytbfRun cps burst (before ++ segment) =
        run signalMytbfStep (signalMytbfRun cps burst before) segment := run_append _ _ _ _
    rw [hrun]
    omega
  · have hrate := hpart _ events (signalMytbfOk_start hburst) hfits
    have hempty : (signalMytbfStart cps burst).effective.token = 0 ∧
        handedOut (signalMytbfStart cps burst).log = 0 ∧
        takenBack (signalMytbfStart cps burst).log = 0 ∧
        (signalMytbfStart cps burst).pc.returning = 0 := ⟨rfl, rfl, rfl, rfl⟩
    obtain ⟨htoken, hout, hback, hreturning⟩ := hempty
    unfold signalMytbfRun
    rw [htoken, hout, hback, hreturning] at hrate
    omega

/-- A return of more than the burst has room for, interrupted before the cut. -/
theorem signalMytbf_rate_limit_interrupted :
    (signalMytbfRun 2 3 [.alarm, .returntoken 5, .advance, .advance]).pc = .comparing 5 ∧
      (signalMytbfRun 2 3 [.alarm, .returntoken 5, .advance, .advance]).bucket.token ≤
        3 + (signalMytbfRun 2 3 [.alarm, .returntoken 5, .advance, .advance]).pc.returning :=
  ⟨by decide +kernel, (signalMytbf_rate_limit (by omega) (by omega) (by decide)
    [.alarm, .returntoken 5, .advance, .advance] (by decide)).1.2⟩

/-! ## Fetches that wait -/

/-- A fetch that found tokens ends after so many steps of the program. -/
def MytbfPc.Within (size : Int) (token : Int) : Nat → MytbfPc → Prop
  | 4, pc => pc = .testing size ∧ 1 ≤ token
  | 3, pc => pc = .choosing size
  | 2, pc => ∃ n, pc = .taking size n
  | 1, pc => ∃ n loaded, pc = .storing size n loaded
  | _, _ => False

theorem alrmHandler_eq {s : SignalMytbf} (htoken : 0 ≤ s.bucket.token) (hcps : 0 ≤ s.bucket.cps)
    (hfits : s.bucket.token + s.bucket.cps ≤ intMax) :
    alrmHandler s =
      { s.store (min (s.bucket.token + s.bucket.cps) s.bucket.burst) with pc := s.pc.wake } := by
  unfold alrmHandler
  rw [addTokens_eq htoken hcps hfits]
  rfl

/-- More tokens and a wake-up change nothing for a fetch that found tokens. -/
theorem MytbfPc.Within.wake {size token after : Int} {left : Nat} {pc : MytbfPc}
    (h : MytbfPc.Within size token left pc) (hafter : 1 ≤ after) :
    MytbfPc.Within size after left pc.wake := by
  match left, h with
  | 4, ⟨hpc, _⟩ => exact ⟨by rw [hpc]; rfl, hafter⟩
  | 3, hpc => exact (congrArg MytbfPc.wake hpc : _)
  | 2, ⟨n, hpc⟩ => exact ⟨n, by rw [hpc]; rfl⟩
  | 1, ⟨n, loaded, hpc⟩ => exact ⟨n, loaded, by rw [hpc]; rfl⟩

theorem MytbfPc.Within.not_idle {size token : Int} {left : Nat} {pc : MytbfPc}
    (h : MytbfPc.Within size token left pc) : pc ≠ .idle := by
  match left, h with
  | 4, ⟨hpc, _⟩ => simp [hpc]
  | 3, hpc => simp [show pc = .choosing size from hpc]
  | 2, ⟨n, hpc⟩ => simp [hpc]
  | 1, ⟨n, loaded, hpc⟩ => simp [hpc]

/-- A step of the program brings a fetch that found tokens closer to its end, or ends it. -/
theorem MytbfPc.Within.advance {size : Int} {left : Nat} {s : SignalMytbf}
    (hwithin : MytbfPc.Within size s.bucket.token left s.pc) :
    ∃ next, s.advance = some next ∧
      ((left = 1 ∧ ∃ n, next.log = s.log ++ [(.fetchtoken size, .tokens n)]) ∨
        (next.log = s.log ∧ 1 < left ∧
          MytbfPc.Within size next.bucket.token (left - 1) next.pc)) := by
  obtain ⟨bucket, pc, log, fault⟩ := s
  match left, hwithin with
  | 4, ⟨hpc, htoken⟩ =>
    change pc = .testing size at hpc
    change 1 ≤ bucket.token at htoken
    subst hpc
    refine ⟨_, rfl, Or.inr ⟨rfl, by omega, ?_⟩⟩
    exact if_neg (by omega : ¬ bucket.token ≤ 0)
  | 3, hpc =>
    change pc = .choosing size at hpc
    subst hpc
    exact ⟨_, rfl, Or.inr ⟨rfl, by omega, _, rfl⟩⟩
  | 2, ⟨n, hpc⟩ =>
    change pc = .taking size n at hpc
    subst hpc
    exact ⟨_, rfl, Or.inr ⟨rfl, by omega, _, _, rfl⟩⟩
  | 1, ⟨n, loaded, hpc⟩ =>
    change pc = .storing size n loaded at hpc
    subst hpc
    exact ⟨_, rfl, Or.inl ⟨rfl, n, rfl⟩⟩

theorem log_extends {cps burst : Int} (hcps : 0 ≤ cps) (hburst : 0 ≤ burst)
    (hmax : burst + cps ≤ intMax) {s : SignalMytbf} (hok : SignalMytbfOk cps burst s)
    {events : List SignalMytbfEvent} (hfits : ∀ event ∈ events, SignalFits cps burst event) :
    ∃ entries, (run signalMytbfStep s events).log = s.log ++ entries := by
  have hrun := (signalFits_meets hfits s).run_induction
    (fun next => SignalMytbfOk cps burst next ∧ ∃ entries, next.log = s.log ++ entries)
    (by
      rintro state event next ⟨hok, before, hlog⟩ hevent h
      obtain ⟨entries, hnext, -⟩ := signalMytbfStep_log hcps hok h
      refine ⟨(signalMytbf_refines hcps hburst hmax state event next hok hevent h).1,
        before ++ entries, ?_⟩
      rw [hnext, hlog, List.append_assoc])
    ⟨hok, [], (List.append_nil _).symm⟩
  exact hrun.2

/-- A fetch that found tokens ends, whatever else happens, once the program takes the
steps that are left. -/
theorem fetch_ends {cps burst size : Int} (hcps : 1 ≤ cps) (hburst : 1 ≤ burst)
    (hmax : burst + cps ≤ intMax) {events : List SignalMytbfEvent}
    (hfits : ∀ event ∈ events, SignalFits cps burst event) {left : Nat} {s : SignalMytbf}
    (hok : SignalMytbfOk cps burst s) (hwithin : MytbfPc.Within size s.bucket.token left s.pc)
    (hsteps : left ≤ events.count .advance) :
    ∃ n rest, (run signalMytbfStep s events).log =
      s.log ++ (.fetchtoken size, .tokens n) :: rest := by
  have hrefines := @signalMytbf_refines cps burst (by omega) (by omega) hmax
  induction events generalizing s left with
  | nil =>
    obtain rfl : left = 0 := by simpa using hsteps
    exact absurd hwithin id
  | cons event events ih =>
    have hrest : ∀ event ∈ events, SignalFits cps burst event := fun event hevent =>
      hfits event (List.mem_cons_of_mem _ hevent)
    have hfirst := hfits event List.mem_cons_self
    have hcount : (event :: events).count .advance =
        events.count .advance + if event = .advance then 1 else 0 := by
      rw [List.count_cons]
      simp
    have hrejected : ∀ call own pc, s.enter call own pc = none := by
      intro call own pc
      unfold SignalMytbf.enter
      rw [if_neg hwithin.not_idle]
    rw [run_cons, EventMachine.apply]
    have hfault := hok.fault
    cases event with
    | fetchtoken own =>
      simp only [signalMytbfStep, hfault, Bool.false_eq_true, if_false, hrejected, Option.getD_none]
      exact ih hrest hok hwithin (by simpa [hcount] using hsteps)
    | returntoken own =>
      simp only [signalMytbfStep, hfault, Bool.false_eq_true, if_false, hrejected, Option.getD_none]
      exact ih hrest hok hwithin (by simpa [hcount] using hsteps)
    | alarm =>
      have hnext : signalMytbfStep s .alarm = some (alrmHandler s) := by
        simp [signalMytbfStep, hfault]
      have hok' := (hrefines s .alarm _ hok hfirst hnext).1
      have heq := alrmHandler_eq hok.nonneg (by rw [hok.sameCps]; omega) (hok.handler_fits hmax)
      rw [hnext, Option.getD_some]
      have htoken : 1 ≤ (alrmHandler s).bucket.token := by
        rw [heq]
        show 1 ≤ min (s.bucket.token + s.bucket.cps) s.bucket.burst
        rw [hok.sameCps, hok.sameBurst]
        have hnonneg := hok.nonneg
        omega
      have hlog : (alrmHandler s).log = s.log := by rw [heq]; rfl
      rw [← hlog]
      refine ih hrest hok' ?_ (by simpa [hcount] using hsteps)
      have hwake := hwithin.wake htoken
      rw [heq] at hwake ⊢
      exact hwake
    | advance =>
      rw [if_pos rfl] at hcount
      obtain ⟨next, hnext, hadvance⟩ := hwithin.advance
      have hstep : signalMytbfStep s .advance = some next := by
        simp [signalMytbfStep, hfault, hnext]
      have hok' := (hrefines s .advance _ hok hfirst hstep).1
      rw [hstep, Option.getD_some]
      rcases hadvance with ⟨-, n, hlog⟩ | ⟨hlog, hleft, hcloser⟩
      · obtain ⟨rest, hrun⟩ := log_extends (by omega) (by omega) hmax hok' hrest
        exact ⟨n, rest, by rw [hrun, hlog, List.append_assoc]; rfl⟩
      · rw [← hlog]
        exact ih hrest hok' hcloser (by omega)

/-- No fetch sleeps forever: the next alarm wakes it, and after the alarm four steps of
the program end it, whatever else happens between them. -/
theorem signalMytbf_fetch_returns {cps burst size : Int} (hcps : 1 ≤ cps) (hburst : 1 ≤ burst)
    (hmax : burst + cps ≤ intMax) (before after : List SignalMytbfEvent)
    (hfits : ∀ event ∈ before ++ after, SignalFits cps burst event)
    (hpc : (signalMytbfRun cps burst before).pc = .pausing size)
    (hsteps : 4 ≤ after.count .advance) :
    ∃ n rest, (signalMytbfRun cps burst (before ++ .alarm :: after)).log =
        (signalMytbfRun cps burst before).log ++ (.fetchtoken size, .tokens n) :: rest ∧
      1 ≤ n ∧ n ≤ min size burst := by
  have hburst' : 0 ≤ burst := by omega
  have hcps' : 0 ≤ cps := by omega
  have hall : ∀ event ∈ before ++ .alarm :: after, SignalFits cps burst event := by
    intro event hevent
    rw [List.mem_append, List.mem_cons] at hevent
    rcases hevent with h | rfl | h
    · exact hfits event (List.mem_append_left _ h)
    · trivial
    · exact hfits event (List.mem_append_right _ h)
  have hasleep := (signalMytbfRun_ok hcps' hburst' hmax fun event hevent =>
    hall event (List.mem_append_left _ hevent)).1
  have hwoken := (@signalMytbfRun_ok _ _ hcps' hburst' hmax (before ++ [.alarm])
    fun event hevent => hall event (by
      rw [List.mem_append, List.mem_singleton] at hevent
      rw [List.mem_append, List.mem_cons]
      exact hevent.imp_right Or.inl)).1
  have heq := alrmHandler_eq hasleep.nonneg (by rw [hasleep.sameCps]; omega)
    (hasleep.handler_fits hmax)
  have hrun : signalMytbfRun cps burst (before ++ [.alarm]) =
      alrmHandler (signalMytbfRun cps burst before) := by
    unfold signalMytbfRun at hasleep ⊢
    rw [run_append, run_cons, EventMachine.apply, signalMytbfStep,
      if_neg (by rw [hasleep.fault]; exact Bool.false_ne_true)]
    rfl
  have hwithin : MytbfPc.Within size (alrmHandler (signalMytbfRun cps burst before)).bucket.token 4
      (alrmHandler (signalMytbfRun cps burst before)).pc := by
    have hnonneg := hasleep.nonneg
    have htoken : 1 ≤ min ((signalMytbfRun cps burst before).bucket.token +
        (signalMytbfRun cps burst before).bucket.cps)
        (signalMytbfRun cps burst before).bucket.burst := by
      rw [hasleep.sameCps, hasleep.sameBurst]
      omega
    rw [heq]
    exact ⟨by simp only [hpc, MytbfPc.wake], htoken⟩
  rw [hrun] at hwoken
  obtain ⟨n, rest, hlog⟩ := fetch_ends hcps hburst hmax
    (fun event hevent => hall event (List.mem_append_right _ (List.mem_cons_of_mem _ hevent)))
    hwoken hwithin hsteps
  have hsame : (alrmHandler (signalMytbfRun cps burst before)).log =
      (signalMytbfRun cps burst before).log := by rw [heq]; rfl
  have hfinal : signalMytbfRun cps burst (before ++ .alarm :: after) =
      run signalMytbfStep (alrmHandler (signalMytbfRun cps burst before)) after := by
    rw [← hrun, signalMytbfRun, signalMytbfRun, ← run_append, List.append_assoc,
      List.singleton_append]
  rw [hsame, ← hfinal] at hlog
  refine ⟨n, rest, hlog, ?_⟩
  have hallowed := (signalMytbfRun_ok hcps' hburst' hmax hall).2 (.fetchtoken size, .tokens n)
    (by rw [hlog]; simp)
  exact hallowed

/-- The alarm arrives between the test and `pause()`, so the fetch sleeps over a token
until the next alarm. -/
theorem signalMytbf_fetch_returns_late :
    (signalMytbfRun 1 3 [.fetchtoken 2, .advance, .alarm, .advance]).bucket.token = 1 ∧
      ∃ n rest, (signalMytbfRun 1 3 ([.fetchtoken 2, .advance, .alarm, .advance] ++
          .alarm :: [.advance, .advance, .advance, .advance])).log =
          (signalMytbfRun 1 3 [.fetchtoken 2, .advance, .alarm, .advance]).log ++
            (.fetchtoken 2, .tokens n) :: rest ∧ 1 ≤ n ∧ n ≤ min 2 3 :=
  ⟨by decide +kernel, signalMytbf_fetch_returns (by omega) (by omega) (by decide) _ _
    (by decide) (by decide +kernel) (by decide)⟩

end LearnApue.Para
