import LearnApue.Foundation.CInt
import LearnApue.Foundation.CondVar

set_option autoImplicit false

/-!
# A token bucket for several threads

`mytbf_mt/mytbf.c`: the handler adds `cps` tokens to every bucket once a second
and cuts what does not fit, `mytbf_fetchtoken` waits for tokens and takes them,
`mytbf_returntoken` gives some back.  All three change a bucket under its mutex,
so a bucket is a system of sections under one mutex with one condition
variable.  The table of the buckets only decides which ones the handler visits.
-/

namespace LearnApue.Para

open LearnApue.Foundation LearnApue.Foundation.CondVar

/-! ## The bucket -/

/-- `struct mytbf_st`, without its place in the table and its locks. -/
structure MytbfSt where
  cps : Int
  burst : Int
  token : Int
deriving DecidableEq, Repr

/-- The bucket that `mytbf_init` puts into the table. -/
def mytbfInit (cps burst : Int) : MytbfSt := ⟨cps, burst, 0⟩

/-- What is done to a bucket: the handler's visit, and the calls of the threads. -/
inductive MytbfCall where
  | tick
  | fetchtoken (size : Int)
  | returntoken (size : Int)
deriving DecidableEq, Repr

/-- What a call returns.  The handler's visit returns nothing. -/
inductive MytbfResult where
  | ticked
  | einval
  | tokens (count : Int)
deriving DecidableEq, Repr

/-- `min`. -/
def minInt (a b : Int) : Int := if a < b then a else b

/-- `if (token > burst) token = burst;` after an addition. -/
def addTokens (me : MytbfSt) (amount : Int) : Option MytbfSt :=
  (toInt? (me.token + amount)).map fun token =>
    { me with token := if token > me.burst then me.burst else token }

/-- A bucket with more tokens, announced to everybody who waits. -/
def refill (me : MytbfSt) (amount : Int) (result : MytbfResult) :
    Pass MytbfSt Unit MytbfResult :=
  match addTokens me amount with
  | none => .fault
  | some next => .done next result (.broadcast ())

/-- The loop body of `pthread_handler` for one bucket. -/
def pthreadHandler (me : MytbfSt) : Pass MytbfSt Unit MytbfResult :=
  refill me me.cps .ticked

/-- `mytbf_fetchtoken`. -/
def mytbfFetchtoken (size : Int) (me : MytbfSt) : Pass MytbfSt Unit MytbfResult :=
  if size ≤ 0 then .done me .einval .silent
  else if me.token ≤ 0 then .wait ()
  else
    .done { me with token := me.token - minInt me.token size }
      (.tokens (minInt me.token size)) .silent

/-- `mytbf_returntoken`. -/
def mytbfReturntoken (size : Int) (me : MytbfSt) : Pass MytbfSt Unit MytbfResult :=
  if size ≤ 0 then .done me .einval .silent
  else refill me size (.tokens size)

/-- One pass of a call through its section. -/
def mytbfPass : MytbfCall → MytbfSt → Pass MytbfSt Unit MytbfResult
  | .tick => pthreadHandler
  | .fetchtoken size => mytbfFetchtoken size
  | .returntoken size => mytbfReturntoken size

/-- A bucket and the threads that use it. -/
abbrev MytbfSystem := System MytbfSt Unit MytbfCall MytbfResult

/-- A bucket right after `mytbf_init`. -/
def mytbfStart (cps burst : Int) (threads : Nat) : MytbfSystem :=
  start (mytbfInit cps burst) threads

/-- A run of the handler and the threads. -/
def mytbfRun (system : MytbfSystem) (events : List (Event MytbfCall)) : MytbfSystem :=
  run mytbfPass system events

/-! ## What a run fetched and returned -/

/-- The handler's visits among the calls that ended. -/
def ticks (ended : List (Finished MytbfCall MytbfResult)) : Nat :=
  ended.countP fun entry => entry.task = .tick

/-- The tokens that one call handed out. -/
def fetchedBy : MytbfCall → MytbfResult → Int
  | .fetchtoken _, .tokens count => count
  | _, _ => 0

/-- The tokens that one call took back. -/
def returnedBy : MytbfCall → MytbfResult → Int
  | .returntoken _, .tokens count => count
  | _, _ => 0

/-- The tokens fetched by the calls that ended. -/
def fetched (ended : List (Finished MytbfCall MytbfResult)) : Int :=
  (ended.map fun entry => fetchedBy entry.task entry.result).sum

/-- The tokens returned by the calls that ended. -/
def returned (ended : List (Finished MytbfCall MytbfResult)) : Int :=
  (ended.map fun entry => returnedBy entry.task entry.result).sum

/-- The calls that ended in a part of a run. -/
def endedIn (system : MytbfSystem) (events : List (Event MytbfCall)) :
    List (Finished MytbfCall MytbfResult) :=
  (mytbfRun system events).log.drop system.log.length

/-- What a call may return: a successful fetch hands out between one token and
the smaller of its size and the burst. -/
def ResultAllowed (burst : Int) : MytbfCall → MytbfResult → Prop
  | .fetchtoken size, .tokens count => 1 ≤ count ∧ count ≤ min size burst
  | _, _ => True

/-! ## What a call does to a bucket -/

/-- The buckets with the rates of `mytbf_init` that hold no more than the burst. -/
structure BucketOk (cps burst : Int) (me : MytbfSt) : Prop where
  sameCps : me.cps = cps
  sameBurst : me.burst = burst
  nonneg : 0 ≤ me.token
  le : me.token ≤ burst

/-- The calls whose additions stay within `int` on every bucket of this burst. -/
def SizeOk (burst : Int) : MytbfCall → Prop
  | .returntoken size => burst + size ≤ intMax
  | _ => True

/-- The addition of a call has room below `INT_MAX`. -/
def RoomFor (me : MytbfSt) : MytbfCall → Prop
  | .tick => me.token ≤ intMax - me.cps
  | .fetchtoken _ => True
  | .returntoken size => size ≤ 0 ∨ me.token ≤ intMax - size

theorem minInt_eq_min (a b : Int) : minInt a b = min a b := by
  unfold minInt
  rcases lt_or_ge a b with h | h
  · rw [if_pos h, min_eq_left h.le]
  · rw [if_neg (not_lt.mpr h), min_eq_right h]

theorem addTokens_eq_none_iff {me : MytbfSt} {amount : Int} (htoken : 0 ≤ me.token)
    (hpos : 0 ≤ amount) : addTokens me amount = none ↔ ¬ me.token ≤ intMax - amount := by
  unfold addTokens
  rw [Option.map_eq_none_iff, toInt?_eq_none_iff, not_iff_not]
  unfold InInt intMin
  constructor
  · intro h
    omega
  · intro h
    omega

/-- A sum that is stored is cut to the burst. -/
theorem addTokens_keeps {cps burst : Int} {me next : MytbfSt} {amount : Int} (hok : BucketOk cps burst me)
    (hpos : 0 ≤ amount) (h : addTokens me amount = some next) :
    BucketOk cps burst next ∧ next.token = min (me.token + amount) burst := by
  obtain ⟨sum, hsum, rfl⟩ := Option.map_eq_some_iff.mp h
  obtain ⟨rfl, -⟩ := toInt?_eq_some_iff.mp hsum
  have hnonneg := hok.nonneg
  have hle := hok.le
  have hcut : (if me.token + amount > me.burst then me.burst else me.token + amount) =
      min (me.token + amount) burst := by
    rw [hok.sameBurst]
    split
    · rename_i hmore
      exact (min_eq_right (le_of_lt hmore)).symm
    · rename_i hfits
      exact (min_eq_left (not_lt.mp hfits)).symm
  refine ⟨⟨hok.sameCps, hok.sameBurst, ?_, ?_⟩, hcut⟩
  · rw [hcut]
    exact le_min (by omega) (by omega)
  · rw [hcut]
    exact min_le_right _ _

theorem refill_eq_fault_iff {me : MytbfSt} {amount : Int} {result : MytbfResult}
    (htoken : 0 ≤ me.token) (hpos : 0 ≤ amount) :
    refill me amount result = .fault ↔ ¬ me.token ≤ intMax - amount := by
  rw [← addTokens_eq_none_iff htoken hpos]
  unfold refill
  cases addTokens me amount with
  | none => simp
  | some next => simp

/-- What a bucket gains through a call that adds tokens. -/
theorem refill_done {cps burst amount : Int} {me next : MytbfSt} {result result' : MytbfResult}
    {notify : Notify Unit} (hok : BucketOk cps burst me) (hpos : 0 ≤ amount)
    (h : refill me amount result' = .done next result notify) :
    BucketOk cps burst next ∧ next.token ≤ me.token + amount ∧ result = result' ∧
      notify = .broadcast () := by
  unfold refill at h
  cases hadd : addTokens me amount with
  | none =>
    rw [hadd] at h
    cases h
  | some added =>
    rw [hadd] at h
    cases h
    obtain ⟨hnext, htoken⟩ := addTokens_keeps hok hpos hadd
    exact ⟨hnext, htoken.trans_le (min_le_left _ _), rfl, rfl⟩

/-- What a call that ends does: it leaves a bucket in its bounds, the bucket
gains no more than the handler and the returns put in and loses what is handed
out, and every gain is announced. -/
theorem mytbfPass_done {cps burst : Int} (hcps : 0 ≤ cps) {call : MytbfCall}
    {me next : MytbfSt} {result : MytbfResult} {notify : Notify Unit}
    (hok : BucketOk cps burst me) (h : mytbfPass call me = .done next result notify) :
    BucketOk cps burst next ∧ ResultAllowed burst call result ∧
      next.token ≤ me.token + (if call = .tick then cps else 0) +
        returnedBy call result - fetchedBy call result ∧
      (notify = .broadcast () ∨ next = me ∨ 0 < me.token) := by
  cases call with
  | tick =>
    obtain ⟨hnext, hgain, rfl, hnotify⟩ := refill_done hok (by rw [hok.sameCps]; exact hcps) h
    rw [hok.sameCps] at hgain
    refine ⟨hnext, trivial, ?_, Or.inl hnotify⟩
    simpa [returnedBy, fetchedBy] using hgain
  | fetchtoken size =>
    simp only [mytbfPass, mytbfFetchtoken] at h
    split at h
    · cases h
      exact ⟨hok, trivial, by simp [returnedBy, fetchedBy], Or.inr (Or.inl rfl)⟩
    · split at h
      · cases h
      · rename_i hsizePos htoken
        cases h
        have hle := hok.le
        rw [minInt_eq_min]
        refine ⟨⟨hok.sameCps, hok.sameBurst, ?_, ?_⟩, ⟨?_, ?_⟩, ?_, Or.inr (Or.inr (not_le.mp htoken))⟩
        · exact sub_nonneg.mpr (min_le_left _ _)
        · have hnonneg : 0 ≤ min me.token size := le_min (by omega) (by omega)
          show me.token - min me.token size ≤ burst
          omega
        · exact le_min (by omega) (by omega)
        · exact le_min (min_le_right _ _) ((min_le_left _ _).trans hle)
        · simp [returnedBy, fetchedBy]
  | returntoken size =>
    simp only [mytbfPass, mytbfReturntoken] at h
    split at h
    · cases h
      exact ⟨hok, trivial, by simp [returnedBy, fetchedBy], Or.inr (Or.inl rfl)⟩
    · rename_i hsizePos
      obtain ⟨hnext, hgain, rfl, hnotify⟩ := refill_done hok (not_le.mp hsizePos).le h
      refine ⟨hnext, trivial, ?_, Or.inl hnotify⟩
      simpa [returnedBy, fetchedBy] using hgain

/-- A call on a bucket overflows exactly when it has no room. -/
theorem mytbfPass_eq_fault_iff {call : MytbfCall} {me : MytbfSt} (hcps : 0 ≤ me.cps)
    (htoken : 0 ≤ me.token) : mytbfPass call me = .fault ↔ ¬ RoomFor me call := by
  cases call with
  | tick => exact refill_eq_fault_iff htoken hcps
  | fetchtoken size =>
    simp only [mytbfPass, mytbfFetchtoken, RoomFor, not_true_eq_false, iff_false]
    split
    · intro h
      cases h
    · split
      · intro h
        cases h
      · intro h
        cases h
  | returntoken size =>
    simp only [mytbfPass, mytbfReturntoken, RoomFor]
    split
    · rename_i hsize
      simp [hsize]
    · rename_i hsize
      rw [refill_eq_fault_iff htoken (by omega)]
      simp [hsize]

/-- No call on a bucket in its bounds overflows. -/
theorem mytbfPass_defined {cps burst : Int} (hcps : 0 ≤ cps) (hmax : burst + cps ≤ intMax)
    {call : MytbfCall} {me : MytbfSt} (hsize : SizeOk burst call) (hok : BucketOk cps burst me) :
    mytbfPass call me ≠ .fault := by
  have hle := hok.le
  rw [Ne, mytbfPass_eq_fault_iff (by rw [hok.sameCps]; exact hcps) hok.nonneg, not_not]
  cases call with
  | tick =>
    show me.token ≤ intMax - me.cps
    rw [hok.sameCps]
    omega
  | fetchtoken size => trivial
  | returntoken size =>
    have hfits : burst + size ≤ intMax := hsize
    exact Or.inr (by omega)

/-- The contract of the three sections of a bucket. -/
theorem mytbf_contract {cps burst : Int} (hcps : 1 ≤ cps) (hmax : burst + cps ≤ intMax) :
    Contract mytbfPass (SizeOk burst) (BucketOk cps burst) (ResultAllowed burst) where
  defined := fun _ _ hsize hok => mytbfPass_defined (by omega) hmax hsize hok
  keeps := fun _ _ _ _ _ _ hok h => (mytbfPass_done (by omega) hok h).1
  result := fun _ _ _ _ _ _ hok h => (mytbfPass_done (by omega) hok h).2.1

/-- A fetch waits only on an empty bucket, and only a fetch waits. -/
theorem token_nonpos_of_wait {call : MytbfCall} {me : MytbfSt} {cond : Unit}
    (h : mytbfPass call me = .wait cond) : me.token ≤ 0 := by
  cases call with
  | tick =>
    simp only [mytbfPass, pthreadHandler, refill] at h
    split at h
    · cases h
    · cases h
  | fetchtoken size =>
    simp only [mytbfPass, mytbfFetchtoken] at h
    split at h
    · cases h
    · split at h
      · assumption
      · cases h
  | returntoken size =>
    simp only [mytbfPass, mytbfReturntoken, refill] at h
    split at h
    · cases h
    · split at h
      · cases h
      · cases h

/-! ## Runs -/

/-- What one call that ends adds to the bound on the tokens of the bucket. -/
def pays (cps : Int) (entry : Finished MytbfCall MytbfResult) : Int :=
  (if entry.task = .tick then cps else 0) + returnedBy entry.task entry.result -
    fetchedBy entry.task entry.result

theorem sum_pays (cps : Int) (ended : List (Finished MytbfCall MytbfResult)) :
    (ended.map (pays cps)).sum = ticks ended * cps + returned ended - fetched ended := by
  induction ended with
  | nil => simp [ticks, returned, fetched]
  | cons entry rest ih =>
    have hticks : ((ticks (entry :: rest) : Nat) : Int) * cps =
        ticks rest * cps + if entry.task = .tick then cps else 0 := by
      unfold ticks
      rw [List.countP_cons]
      split
      · rename_i h
        rw [if_pos (by simpa using h)]
        push_cast
        ring
      · rename_i h
        rw [if_neg (by simpa using h)]
        push_cast
        ring
    simp only [List.map_cons, List.sum_cons, ih, hticks, returned, fetched, pays]
    ring

theorem sound_mytbfStart {cps burst : Int} (hburst : 1 ≤ burst) (threads : Nat) :
    Sound (SizeOk burst) (BucketOk cps burst) (ResultAllowed burst)
      (mytbfStart cps burst threads) := by
  apply sound_start
  exact ⟨rfl, rfl, le_refl 0, by show (0 : Int) ≤ burst; omega⟩

/-- Over any part of a run of sound buckets, what was fetched beyond what was
returned is covered by what the bucket held and by the ticks. -/
theorem fetched_le {cps burst : Int} (hcps : 1 ≤ cps) (hmax : burst + cps ≤ intMax)
    {system : MytbfSystem}
    (hsound : Sound (SizeOk burst) (BucketOk cps burst) (ResultAllowed burst) system)
    (events : List (Event MytbfCall)) (hsizes : ∀ event ∈ events, event.Asks (SizeOk burst)) :
    fetched (endedIn system events) - returned (endedIn system events) ≤
      system.shared.token + ticks (endedIn system events) * cps := by
  have hcontract := mytbf_contract hcps hmax
  have hpaid : ∀ thread task shared next result notify, SizeOk burst task →
      BucketOk cps burst shared → mytbfPass task shared = .done next result notify →
      next.token ≤ shared.token + pays cps ⟨thread, task, result⟩ := by
    intro thread task shared next result notify hsize hok h
    have hgain := (mytbfPass_done (by omega) hok h).2.2.1
    show next.token ≤ shared.token + ((if task = .tick then cps else 0) +
      returnedBy task result - fetchedBy task result)
    omega
  obtain ⟨ended, hlog, htoken⟩ := hcontract.charge MytbfSt.token (pays cps) hpaid hsound events
    hsizes
  have hended : endedIn system events = ended := by
    unfold endedIn mytbfRun
    rw [hlog, List.drop_left]
  have hafter := (hcontract.run hsound events hsizes).shared.nonneg
  rw [sum_pays] at htoken
  rw [hended]
  omega

/-- The rate limit of a bucket.  Whatever the handler and any number of threads
do, nothing overflows and the bucket holds between nothing and its burst; a
successful fetch hands out between one token and the smaller of its size and the
burst; over every part of the run the tokens fetched exceed the tokens returned
by at most the burst and one `cps` for every tick in it, and since the start by
the ticks alone; and nobody is left in the wait set while there are tokens. -/
theorem mytbf_rate_limit {cps burst : Int} (hcps : 1 ≤ cps) (hburst : 1 ≤ burst)
    (hmax : burst + cps ≤ intMax) (threads : Nat) (events : List (Event MytbfCall))
    (hsizes : ∀ event ∈ events, event.Asks (SizeOk burst)) :
    (mytbfRun (mytbfStart cps burst threads) events).fault = false ∧
    (0 ≤ (mytbfRun (mytbfStart cps burst threads) events).shared.token ∧
      (mytbfRun (mytbfStart cps burst threads) events).shared.token ≤ burst) ∧
    (∀ entry ∈ (mytbfRun (mytbfStart cps burst threads) events).log, ∀ size count,
      entry.task = .fetchtoken size → entry.result = .tokens count →
      1 ≤ count ∧ count ≤ min size burst) ∧
    (∀ before segment rest, events = before ++ segment ++ rest →
      fetched (endedIn (mytbfRun (mytbfStart cps burst threads) before) segment) -
          returned (endedIn (mytbfRun (mytbfStart cps burst threads) before) segment) ≤
        burst + ticks (endedIn (mytbfRun (mytbfStart cps burst threads) before) segment) * cps) ∧
    (fetched (mytbfRun (mytbfStart cps burst threads) events).log -
        returned (mytbfRun (mytbfStart cps burst threads) events).log ≤
      ticks (mytbfRun (mytbfStart cps burst threads) events).log * cps) ∧
    (0 < (mytbfRun (mytbfStart cps burst threads) events).shared.token →
      ∀ cond call, .waiting cond call ∉ (mytbfRun (mytbfStart cps burst threads) events).threads) := by
  have hcontract := mytbf_contract hcps hmax
  have hstart := @sound_mytbfStart cps burst hburst threads
  have hsound : Sound (SizeOk burst) (BucketOk cps burst) (ResultAllowed burst)
      (mytbfRun (mytbfStart cps burst threads) events) := hcontract.run hstart events hsizes
  refine ⟨hsound.fault, ⟨hsound.shared.nonneg, hsound.shared.le⟩, ?_, ?_, ?_, ?_⟩
  · intro entry hentry size count htask hresult
    have hallowed := hsound.log entry hentry
    rw [htask, hresult] at hallowed
    exact hallowed
  · intro before segment rest hevents
    subst hevents
    have hbefore : Sound (SizeOk burst) (BucketOk cps burst) (ResultAllowed burst)
        (mytbfRun (mytbfStart cps burst threads) before) :=
      hcontract.run hstart before fun event hevent => hsizes event (by simp [hevent])
    have hrate := fetched_le hcps hmax hbefore segment fun event hevent =>
      hsizes event (by simp [hevent])
    have hheld := hbefore.shared.le
    omega
  · have hrate := fetched_le hcps hmax hstart events hsizes
    have hlog : endedIn (mytbfStart cps burst threads) events =
        (mytbfRun (mytbfStart cps burst threads) events).log := List.drop_zero
    rw [hlog] at hrate
    have hempty : (mytbfStart cps burst threads).shared.token = 0 := rfl
    omega
  · intro htoken cond call hwaiting
    have halert : Alert mytbfPass (mytbfRun (mytbfStart cps burst threads) events) := by
      refine hcontract.alert ?_ hstart (alert_start _ threads) events hsizes
      intro task shared next result notify own waiter hsize _ hok hdone hwait hnotify
      have hempty := token_nonpos_of_wait hwait
      obtain hbroadcast | hsame | hpos := (mytbfPass_done (by omega) hok hdone).2.2.2
      · exact absurd hbroadcast hnotify
      · rw [hsame]
        exact hwait
      · omega
    have hempty := token_nonpos_of_wait (halert cond call hwaiting)
    omega

/-- One token a second and a burst of three: a thread waits for the first tick. -/
theorem mytbf_rate_limit_slow :
    (mytbfRun (mytbfStart 1 3 2) [.call 1 (.fetchtoken 5) 0, .call 0 .tick 0, .resume 1 0]).log =
        [⟨0, .tick, .ticked⟩, ⟨1, .fetchtoken 5, .tokens 1⟩] ∧
      (mytbfRun (mytbfStart 1 3 2)
        [.call 1 (.fetchtoken 5) 0, .call 0 .tick 0, .resume 1 0]).fault = false :=
  ⟨by decide +kernel,
    (mytbf_rate_limit (by omega) (by omega) (by decide) 2
      [.call 1 (.fetchtoken 5) 0, .call 0 .tick 0, .resume 1 0]
      (by
        intro event hevent
        simp only [List.mem_cons, List.not_mem_nil, or_false] at hevent
        rcases hevent with rfl | rfl | rfl <;> trivial)).1⟩

end LearnApue.Para
