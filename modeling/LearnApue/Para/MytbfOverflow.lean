import LearnApue.Para.Mytbf

set_option autoImplicit false

/-!
# The token sums of a bucket

The handler and `mytbf_returntoken` add to a bucket before they cut what does not
fit, and `mytbf_init` accepts every rate and burst.  A run is free of overflow
exactly when every addition finds room below `INT_MAX`.  All runs with returns up to
some size are, exactly when the burst leaves room for the rate and for that size.
-/

namespace LearnApue.Para

open LearnApue.Foundation LearnApue.Foundation.CondVar

variable {cps burst : Int}

/-! ## Runs -/

/-- The section that an event runs has room for its addition. -/
def Room (system : MytbfSystem) (event : Event MytbfCall) : Prop :=
  ∀ call, system.task event = some call → RoomFor system.shared call

theorem bucketOk_start (hburst : 0 ≤ burst) (threads : Nat) :
    BucketOk cps burst (mytbfStart cps burst threads).shared := ⟨rfl, rfl, le_rfl, hburst⟩

/-- A bucket stays within its bounds as long as its run goes on. -/
theorem bucketOk_run (hcps : 0 ≤ cps) {system : MytbfSystem} (h : BucketOk cps burst system.shared)
    (events : List (Event MytbfCall)) : BucketOk cps burst (mytbfRun system events).shared :=
  @run_keeps MytbfSt Unit MytbfCall MytbfResult mytbfPass _ (fun _ me => BucketOk cps burst me)
    (fun _ _ _ _ _ _ _ hok hdone => (mytbfPass_done hcps hok hdone).1) system h events

/-- No overflow so far, and the bucket within its bounds. -/
def Sane (burst : Int) (system : MytbfSystem) : Prop :=
  system.fault = false ∧ 0 ≤ system.shared.token ∧ system.shared.token ≤ burst

/-- A run is sane exactly when every addition of it has room. -/
theorem sane_iff_room (hcps : 0 ≤ cps) (hburst : 0 ≤ burst) (threads : Nat)
    (events : List (Event MytbfCall)) :
    Sane burst (mytbfRun (mytbfStart cps burst threads) events) ↔
      EventMachine.Meets (step mytbfPass) Room (mytbfStart cps burst threads) events := by
  have hstart : BucketOk cps burst (mytbfStart cps burst threads).shared :=
    bucketOk_start hburst threads
  have hok := bucketOk_run hcps hstart events
  have hroom : ∀ system : MytbfSystem, BucketOk cps burst system.shared → ∀ event,
      ¬ Faults mytbfPass system event ↔ Room system event := by
    intro system hsystem event
    have hfault := fun call => @mytbfPass_eq_fault_iff call system.shared
      (by rw [hsystem.sameCps]; exact hcps) hsystem.nonneg
    unfold Faults Room
    simp only [hfault, not_exists, not_and, not_not]
  have hkeeps : ∀ (system : MytbfSystem) event next, BucketOk cps burst system.shared →
      step mytbfPass system event = some next → BucketOk cps burst next.shared := by
    intro system event next hsystem hs
    have hnext := bucketOk_run hcps hsystem [event]
    rwa [mytbfRun, run, EventMachine.run_cons, EventMachine.run_nil, EventMachine.apply, hs] at hnext
  have hfault := @run_fault_iff MytbfSt Unit MytbfCall MytbfResult mytbfPass _
    (mytbfStart cps burst threads) rfl events
  constructor
  · intro hsane
    refine (hfault.mp hsane.1).of_inv (fun system => BucketOk cps burst system.shared) ?_ hstart
    intro system event next hsystem hdefined hs
    exact ⟨(hroom system hsystem event).mp hdefined, hkeeps system event next hsystem hs⟩
  · intro hmeets
    refine ⟨hfault.mpr ?_, hok.nonneg, hok.le⟩
    refine hmeets.of_inv (fun system => BucketOk cps burst system.shared) ?_ hstart
    intro system event next hsystem hspace hs
    exact ⟨(hroom system hsystem event).mpr hspace, hkeeps system event next hsystem hs⟩

/-! ## All runs -/

/-- The returns of a run are of at most some size. -/
def ReturnsUpTo (size : Int) : MytbfCall → Prop
  | .returntoken returned => returned ≤ size
  | _ => True

/-- `count` visits of the handler. -/
def ticking (count : Nat) : List (Event MytbfCall) := List.replicate count (.call 0 .tick 0)

/-- A call of the only thread that adds to the bucket: it has room and the sum is cut. -/
theorem run_one {system : MytbfSystem} (hidle : system.threads = [.idle])
    (hok : BucketOk cps burst system.shared) (hdefined : system.fault = false) {call : MytbfCall}
    {amount : Int} {result : MytbfResult} (hpos : 0 ≤ amount)
    (hcall : mytbfPass call system.shared = refill system.shared amount result)
    (hsane : (mytbfRun system [.call 0 call 0]).fault = false) :
    system.shared.token + amount ≤ intMax ∧
      (mytbfRun system [.call 0 call 0]).threads = [.idle] ∧
      (mytbfRun system [.call 0 call 0]).shared.token = min (system.shared.token + amount) burst := by
  have hstep : step mytbfPass system (.call 0 call 0) = pass mytbfPass system 0 call 0 := by
    unfold step
    rw [hdefined, hidle]
    rfl
  have hrun : mytbfRun system [.call 0 call 0] =
      (pass mytbfPass system 0 call 0).getD system := by
    rw [← hstep]
    rfl
  cases hadd : addTokens system.shared amount with
  | none =>
    have hfault : pass mytbfPass system 0 call 0 = some { system with fault := true } := by
      rw [CondVar.pass, hcall, refill, hadd]
    rw [hrun, hfault] at hsane
    cases hsane
  | some next =>
    have hdone : pass mytbfPass system 0 call 0 = some { system with
        shared := next
        threads := [.idle]
        log := system.log ++ [⟨0, call, result⟩] } := by
      rw [CondVar.pass, hcall, refill, hadd, hidle]
      rfl
    have hroom : system.shared.token ≤ intMax - amount := by
      by_contra hnone
      rw [(addTokens_eq_none_iff hok.nonneg hpos).mpr hnone] at hadd
      cases hadd
    rw [hrun, hdone]
    exact ⟨by omega, rfl, (addTokens_keeps hok hpos hadd).2⟩

/-- While nothing overflows, ticks fill the bucket. -/
theorem run_ticking (hcps : 0 ≤ cps) (hburst : 0 ≤ burst) (count : Nat)
    (hsane : ∀ k, k ≤ count → (mytbfRun (mytbfStart cps burst 1) (ticking k)).fault = false) :
    (mytbfRun (mytbfStart cps burst 1) (ticking count)).threads = [.idle] ∧
      (mytbfRun (mytbfStart cps burst 1) (ticking count)).shared.token = min (count * cps) burst := by
  induction count with
  | zero =>
    refine ⟨rfl, ?_⟩
    show (0 : Int) = min ((0 : Nat) * cps) burst
    rw [Nat.cast_zero, zero_mul, min_eq_left hburst]
  | succ count ih =>
    obtain ⟨hidle, htoken⟩ := ih fun k hk => hsane k (by omega)
    have hok := bucketOk_run hcps (@bucketOk_start cps burst hburst 1) (ticking count)
    have hsplit : mytbfRun (mytbfStart cps burst 1) (ticking (count + 1)) =
        mytbfRun (mytbfRun (mytbfStart cps burst 1) (ticking count)) [.call 0 .tick 0] := by
      rw [ticking, List.replicate_succ']
      exact run_append mytbfPass _ _ _
    have hlast := hsane (count + 1) le_rfl
    rw [hsplit] at hlast ⊢
    obtain ⟨-, hidle', htoken'⟩ := run_one hidle hok (hsane count (by omega)) hcps
      (by show refill _ _ _ = _; rw [hok.sameCps]) hlast
    refine ⟨hidle', ?_⟩
    rw [htoken', htoken]
    push_cast
    rw [add_mul, one_mul]
    omega

theorem sizeOk_of_returnsUpTo {size : Int} (hreturns : burst + size ≤ intMax)
    {event : Event MytbfCall} (hasks : event.Asks (ReturnsUpTo size)) :
    event.Asks (SizeOk burst) := by
  cases event with
  | call thread call chosen =>
    cases call with
    | returntoken returned =>
      have hle : returned ≤ size := hasks
      show burst + returned ≤ intMax
      omega
    | tick => trivial
    | fetchtoken fetched => trivial
  | resume thread chosen => trivial
  | spurious thread => trivial

/-- A burst that leaves room for the rate and for the returns keeps every run sane. -/
theorem sane_of_room (hcps : 1 ≤ cps) (hburst : 1 ≤ burst) (hrate : burst + cps ≤ intMax)
    {size : Int} (hreturns : burst + size ≤ intMax) (threads : Nat)
    {events : List (Event MytbfCall)} (hasks : ∀ event ∈ events, event.Asks (ReturnsUpTo size)) :
    Sane burst (mytbfRun (mytbfStart cps burst threads) events) := by
  have hsound : Sound (SizeOk burst) (BucketOk cps burst) (ResultAllowed burst)
      (mytbfRun (mytbfStart cps burst threads) events) :=
    (mytbf_contract hcps hrate).run (sound_mytbfStart hburst threads) events
      fun event hevent => sizeOk_of_returnsUpTo hreturns (hasks event hevent)
  exact ⟨hsound.fault, hsound.shared.nonneg, hsound.shared.le⟩

/-- Every run with returns of at most some size is sane exactly when the burst leaves
room for the rate and for that size. -/
theorem all_sane_iff (hcps : 1 ≤ cps) (hburst : 1 ≤ burst) (size : Int) :
    (∀ threads events, (∀ event ∈ events, event.Asks (ReturnsUpTo size)) →
        Sane burst (mytbfRun (mytbfStart cps burst threads) events)) ↔
      burst + cps ≤ intMax ∧ burst + size ≤ intMax := by
  constructor
  · intro hall
    have hticking : ∀ k, ∀ event ∈ ticking k, event.Asks (ReturnsUpTo size) := by
      intro k event hevent
      rw [List.eq_of_mem_replicate hevent]
      trivial
    have hsane := fun k => (hall 1 (ticking k) (hticking k)).1
    obtain ⟨hidle, htoken⟩ := @run_ticking cps burst (by omega) (by omega) burst.toNat
      fun k _ => hsane k
    have hfull : min ((burst.toNat : Int) * cps) burst = burst := by
      rw [Int.toNat_of_nonneg (by omega)]
      exact min_eq_right (le_mul_of_one_le_right (by omega) hcps)
    rw [hfull] at htoken
    have hok := bucketOk_run (by omega) (@bucketOk_start cps burst (by omega) 1) (ticking burst.toNat)
    have hmore : ∀ call, Event.Asks (ReturnsUpTo size) (.call 0 call 0) →
        (mytbfRun (mytbfRun (mytbfStart cps burst 1) (ticking burst.toNat))
          [.call 0 call 0]).fault = false := by
      intro call hcall
      rw [mytbfRun, mytbfRun, ← run_append]
      refine (hall 1 (ticking burst.toNat ++ [.call 0 call 0]) ?_).1
      intro event hevent
      rcases List.mem_append.mp hevent with hmem | hmem
      · exact hticking _ event hmem
      · rw [List.mem_singleton.mp hmem]
        exact hcall
    have hrate := (run_one hidle hok (hsane _) (show 0 ≤ cps by omega)
      (show _ = refill _ cps .ticked by
        show refill _ _ _ = _
        rw [hok.sameCps]) (hmore .tick trivial)).1
    rw [htoken] at hrate
    refine ⟨hrate, ?_⟩
    by_cases hsize : size ≤ 0
    · omega
    · have hcall : mytbfPass (.returntoken size)
          (mytbfRun (mytbfStart cps burst 1) (ticking burst.toNat)).shared =
            refill _ size (.tokens size) := if_neg hsize
      have hreturn := (run_one hidle hok (hsane _) (show 0 ≤ size by omega) hcall
        (hmore (.returntoken size) le_rfl)).1
      rwa [htoken] at hreturn
  · rintro ⟨hrate, hreturns⟩ threads events hasks
    exact sane_of_room hcps hburst hrate hreturns threads hasks

/-- Where the token sums stay within `int`.  A run of a bucket is sane exactly when every
addition of it has room, and all runs with returns up to a size are exactly when the
burst leaves room for the rate and for that size. -/
theorem mytbf_sane_iff (cps burst : Int) (hcps : 1 ≤ cps) (hburst : 1 ≤ burst) :
    (∀ threads events, Sane burst (mytbfRun (mytbfStart cps burst threads) events) ↔
      EventMachine.Meets (step mytbfPass) Room (mytbfStart cps burst threads) events) ∧
    ∀ size, (∀ threads events, (∀ event ∈ events, event.Asks (ReturnsUpTo size)) →
        Sane burst (mytbfRun (mytbfStart cps burst threads) events)) ↔
      burst + cps ≤ intMax ∧ burst + size ≤ intMax :=
  ⟨fun threads events => sane_iff_room (by omega) (by omega) threads events,
    fun size => all_sane_iff hcps hburst size⟩

theorem mytbf_sane_iff_three :
    Sane 3 (mytbfRun (mytbfStart 1 3 1) (ticking 4)) ↔
      EventMachine.Meets (step mytbfPass) Room (mytbfStart 1 3 1) (ticking 4) :=
  (mytbf_sane_iff 1 3 (by decide) (by decide)).1 1 (ticking 4)

/-- With the greatest rate and burst the second tick overflows. -/
theorem mytbf_overflow_ticks :
    ¬ Sane intMax (mytbfRun (mytbfStart intMax intMax 1) (ticking 2)) ∧
      (mytbfRun (mytbfStart intMax intMax 1) (ticking 2)).fault = true := by
  have hfault : (mytbfRun (mytbfStart intMax intMax 1) (ticking 2)).fault = true := by
    decide +kernel
  refine ⟨fun h => ?_, hfault⟩
  rw [h.1] at hfault
  cases hfault

end LearnApue.Para
