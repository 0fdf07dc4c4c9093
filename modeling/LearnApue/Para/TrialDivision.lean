import LearnApue.Foundation.CInt
import LearnApue.Para.PrimerPool

set_option autoImplicit false

/-!
# Two loops of trial division

The workers of `primer1_pool_cond.c` and `primer1_pool_busy.c` test a job for
divisors: the first while `j <= i / j`, the second while `j < i / 2`.  Both loops
are written here in the arithmetic of `int`, where an addition may overflow and a
division may have no result.

The bounds differ at their edge.  `2` divides `4`, and it is not below `4 / 2`.
-/

namespace LearnApue.Para.TrialDivision

open LearnApue.Foundation

/-! ## The loops -/

/-- What a loop leaves: `mark`, and the values of `j` at its head.  Every division by
`j` is one by such a value. -/
structure Trial where
  mark : Bool
  heads : List Int
deriving DecidableEq, Repr

/-- The loop over `j`, from some `j` on, with its condition: no result where an
operation has none. -/
def trialFrom (test : Int → Option Bool) (i j : Int) : Option Trial :=
  match test j with
  | none => none
  | some false => some ⟨true, [j]⟩
  | some true =>
      match mod? i j with
      | none => none
      | some remainder =>
          if remainder = 0 then some ⟨false, [j]⟩
          else
            match _hnext : toInt? (j + 1) with
            | none => none
            | some next =>
                (trialFrom test i next).map fun trial => { trial with heads := j :: trial.heads }
termination_by (intMax - j).toNat
decreasing_by
  obtain ⟨rfl, hint⟩ := toInt?_eq_some_iff.mp _hnext
  have hle := hint.2
  omega

/-- `for (j = 2; j <= i / j; j++)` of `primer1_pool_cond.c`. -/
def condTrial (i : Int) : Option Trial :=
  trialFrom (fun j => (div? i j).map fun quotient => j ≤ quotient) i 2

/-- `for (j = 2; j < i/2; j++)` of `primer1_pool_busy.c`. -/
def busyTrial (i : Int) : Option Trial :=
  trialFrom (fun j => (div? i 2).map fun half => j < half) i 2

/-! ## What a loop computes -/

section Loop

variable {test : Int → Option Bool} {i j : Int}

theorem trialFrom_past (htest : test j = some false) : trialFrom test i j = some ⟨true, [j]⟩ := by
  rw [trialFrom, htest]

theorem trialFrom_found (htest : test j = some true) (hmod : mod? i j = some 0) :
    trialFrom test i j = some ⟨false, [j]⟩ := by
  rw [trialFrom, htest]
  simp only [hmod, if_pos]

theorem trialFrom_next {remainder : Int} (htest : test j = some true)
    (hmod : mod? i j = some remainder) (hne : remainder ≠ 0) (hnext : InInt (j + 1)) :
    trialFrom test i j =
      (trialFrom test i (j + 1)).map fun trial => { trial with heads := j :: trial.heads } := by
  rw [trialFrom, htest]
  simp only [hmod, if_neg hne]
  split
  · rename_i hnone
    exact absurd hnext (toInt?_eq_none_iff.mp hnone)
  · rename_i next hsome
    rw [(toInt?_eq_some_iff.mp hsome).1]

/-- A loop whose bound stays below `i` is defined, stays at positive values of `j`
and finds a divisor within its bound. -/
theorem trialFrom_spec (hint : InInt i) (bound : Int → Prop) [DecidablePred bound]
    (htest : ∀ j, 0 < j → test j = some (decide (bound j)))
    (hbelow : ∀ j, 0 < j → bound j → j < i)
    (hdown : ∀ j divisor, 0 < j → j ≤ divisor → bound divisor → bound j) (hj : 0 < j) :
    ∃ trial, trialFrom test i j = some trial ∧ (∀ head ∈ trial.heads, 0 < head) ∧
      (trial.mark = true ↔ ∀ divisor, j ≤ divisor → bound divisor → ¬ divisor ∣ i) := by
  generalize hfuel : (i - j).toNat = fuel
  induction fuel generalizing j with
  | zero =>
    -- `j` is past `i`, and so past the bound
    have hpast : ¬ bound j := fun h => by have := hbelow j hj h; omega
    refine ⟨⟨true, [j]⟩, trialFrom_past (by rw [htest j hj, decide_eq_false hpast]), ?_, ?_⟩
    · simpa using hj
    · exact ⟨fun _ divisor hle hbound => absurd (hdown j divisor hj hle hbound) hpast, fun _ => rfl⟩
  | succ fuel ih =>
    by_cases hbound : bound j
    case neg =>
      refine ⟨⟨true, [j]⟩, trialFrom_past (by rw [htest j hj, decide_eq_false hbound]), ?_, ?_⟩
      · simpa using hj
      · exact ⟨fun _ divisor hle h => absurd (hdown j divisor hj hle h) hbound, fun _ => rfl⟩
    case pos =>
      have hlt : j < i := hbelow j hj hbound
      have htrue : test j = some true := by rw [htest j hj, decide_eq_true hbound]
      have hmod : mod? i j = some (i % j) := mod?_of_pos (by omega) hint hj
      by_cases hdvd : j ∣ i
      case pos =>
        rw [Int.emod_eq_zero_of_dvd hdvd] at hmod
        refine ⟨⟨false, [j]⟩, trialFrom_found htrue hmod, by simpa using hj, nofun, fun h => ?_⟩
        exact absurd hdvd (h j le_rfl hbound)
      case neg =>
        have hnext : InInt (j + 1) := by
          have hmax : i ≤ intMax := hint.2
          unfold InInt intMin
          omega
        obtain ⟨trial, hrun, hheads, hmark⟩ := @ih (j + 1) (by omega) (by omega)
        refine ⟨{ trial with heads := j :: trial.heads }, ?_, ?_, ?_⟩
        · rw [trialFrom_next htrue hmod (fun h => hdvd (Int.dvd_of_emod_eq_zero h)) hnext, hrun,
            Option.map_some]
        · simpa using ⟨hj, hheads⟩
        · refine hmark.trans ⟨fun h divisor hle => ?_, fun h divisor hle => h divisor (by omega)⟩
          rcases eq_or_lt_of_le hle with rfl | hlt
          · exact fun _ => hdvd
          · exact h divisor hlt

end Loop

/-- Divisors of an `int` that is not negative are natural numbers. -/
theorem forall_divisor_iff {i : Nat} (bound : Int → Prop) :
    (∀ divisor : Int, 2 ≤ divisor → bound divisor → ¬ divisor ∣ (i : Int)) ↔
      ∀ divisor : Nat, 2 ≤ divisor → bound divisor → ¬ divisor ∣ i := by
  constructor
  · intro h divisor htwo hbound hdvd
    exact h divisor (by omega) hbound (by exact_mod_cast hdvd)
  · intro h divisor htwo hbound hdvd
    lift divisor to Nat using by omega
    exact h divisor (by omega) hbound (by exact_mod_cast hdvd)

/-! ## The bound `j <= i / j` -/

/-- The loop of `primer1_pool_cond.c` is defined, divides by positive values only and
leaves the mark of the pool's model. -/
theorem condTrial_spec {i : Int} (hint : InInt i) (hi : 2 ≤ i) :
    ∃ trial, condTrial i = some trial ∧ (∀ head ∈ trial.heads, 0 < head) ∧
      trial.mark = PrimerPool.mark i := by
  have htest : ∀ j, 0 < j →
      (div? i j).map (fun quotient => decide (j ≤ quotient)) = some (decide (j ≤ i / j)) := by
    intro j hj
    rw [div?_of_pos (by omega) hint hj, Option.map_some]
  have hbelow : ∀ j, 0 < j → j ≤ i / j → j < i := by
    intro j hj hle
    have hmul : j * j ≤ i := (Int.le_ediv_iff_mul_le hj).mp hle
    nlinarith
  have hdown : ∀ j divisor, 0 < j → j ≤ divisor → divisor ≤ i / divisor → j ≤ i / j := by
    intro j divisor hj hle hbound
    rw [Int.le_ediv_iff_mul_le (by omega)] at hbound ⊢
    exact (mul_le_mul hle hle hj.le (by omega)).trans hbound
  obtain ⟨trial, hrun, hheads, hmark⟩ :=
    trialFrom_spec hint (fun j => j ≤ i / j) htest hbelow hdown (j := 2) (by omega)
  refine ⟨trial, hrun, hheads, ?_⟩
  lift i to Nat using by omega
  rw [Bool.eq_iff_iff, hmark, PrimerPool.mark, PrimerPool.markFrom_eq_true,
    forall_divisor_iff (fun j => j ≤ (i : Int) / j)]
  norm_cast

/-! ## The bound `j < i / 2` -/

/-- A composite number other than `4` has a divisor below its half. -/
theorem exists_divisor_lt_half {i : Nat} (htwo : 2 ≤ i) (hprime : ¬ i.Prime) (hfour : i ≠ 4) :
    ∃ divisor, 2 ≤ divisor ∧ divisor < i / 2 ∧ divisor ∣ i := by
  have hfac : 2 ≤ i.minFac := (Nat.minFac_prime (by omega)).two_le
  have hsq : i.minFac * i.minFac ≤ i := by
    have h := Nat.minFac_sq_le_self (by omega) hprime
    rwa [pow_two] at h
  refine ⟨i.minFac, hfac, ?_, Nat.minFac_dvd i⟩
  rcases eq_or_lt_of_le hfac with heq | hlt
  · -- the half of an even number is past `2` from `6` on
    have heven : 2 ∣ i := heq ▸ Nat.minFac_dvd i
    rw [← heq] at hsq ⊢
    omega
  · have hmul : 3 * i.minFac ≤ i := (Nat.mul_le_mul_right _ hlt).trans hsq
    omega

theorem no_divisor_lt_half_iff {i : Nat} (htwo : 2 ≤ i) :
    (∀ divisor : Nat, 2 ≤ divisor → divisor < i / 2 → ¬ divisor ∣ i) ↔ i.Prime ∨ i = 4 := by
  constructor
  · intro h
    by_contra hnot
    obtain ⟨divisor, hge, hlt, hdvd⟩ :=
      exists_divisor_lt_half htwo (fun hp => hnot (.inl hp)) (fun h4 => hnot (.inr h4))
    exact h divisor hge hlt hdvd
  · rintro (hprime | rfl) divisor hge hlt hdvd
    · rcases (Nat.dvd_prime hprime).mp hdvd with rfl | rfl <;> omega
    · omega

/-- The loop of `primer1_pool_busy.c` is defined and takes the primes, and `4`, for
primes. -/
theorem busyTrial_spec {i : Int} (hint : InInt i) (hi : 2 ≤ i) :
    ∃ trial, busyTrial i = some trial ∧ (trial.mark = true ↔ i.toNat.Prime ∨ i = 4) := by
  have htest : ∀ j, 0 < j →
      (div? i 2).map (fun half => decide (j < half)) = some (decide (j < i / 2)) := by
    intro j hj
    rw [div?_of_pos (by omega) hint (by omega), Option.map_some]
  obtain ⟨trial, hrun, -, hmark⟩ :=
    trialFrom_spec hint (fun j => j < i / 2) htest (by omega) (by omega) (j := 2) (by omega)
  refine ⟨trial, hrun, ?_⟩
  lift i to Nat using by omega
  have htwo : 2 ≤ i := by omega
  rw [hmark, forall_divisor_iff (fun j => j < (i : Int) / 2), Int.toNat_natCast]
  have hnat := no_divisor_lt_half_iff htwo
  norm_cast

/-! ## The two marks -/

/-- Both loops are defined on `i`: the first marks exactly the primes and divides by
positive values only, the second leaves the same mark. -/
def TrialsAgree (i : Int) : Prop :=
  ∃ cond busy, condTrial i = some cond ∧ busyTrial i = some busy ∧
    (cond.mark = true ↔ i.toNat.Prime) ∧ (∀ head ∈ cond.heads, 0 < head) ∧
      busy.mark = cond.mark

/-- The bound `j < i / 2` misses one divisor: `4` is its own exception. -/
theorem trialsAgree_iff {i : Int} (hint : InInt i) (hi : 2 ≤ i) : TrialsAgree i ↔ i ≠ 4 := by
  obtain ⟨cond, hcond, hheads, hmark⟩ := condTrial_spec hint hi
  obtain ⟨busy, hbusy, hhalf⟩ := busyTrial_spec hint hi
  have hprime : cond.mark = true ↔ i.toNat.Prime := by rw [hmark, PrimerPool.mark_iff_prime hi]
  have hfour : ¬ Nat.Prime (4 : Int).toNat := by decide
  constructor
  · rintro ⟨cond', busy', hcond', hbusy', hprime', -, hagree⟩ rfl
    obtain rfl : busy = busy' := Option.some.inj (hbusy.symm.trans hbusy')
    exact hfour (hprime'.mp (hagree ▸ hhalf.mpr (.inr rfl)))
  · intro hne
    refine ⟨cond, busy, hcond, hbusy, hprime, hheads, ?_⟩
    rw [Bool.eq_iff_iff, hhalf, hprime, or_iff_left hne]

theorem trialsAgree_nine : (InInt 9 ∧ (2 : Int) ≤ 9) ∧ TrialsAgree 9 :=
  ⟨by decide, (trialsAgree_iff (by decide) (by decide)).mpr (by decide)⟩

/-- `4 / 2` is not above `2`, so the second loop never tries a divisor of `4`. -/
theorem not_trialsAgree_four : (InInt 4 ∧ (2 : Int) ≤ 4) ∧ ¬ TrialsAgree 4 := by
  refine ⟨by decide, ?_⟩
  rintro ⟨cond, busy, -, hbusy, hprime, -, hagree⟩
  obtain rfl : (⟨true, [2]⟩ : Trial) = busy :=
    Option.some.inj ((trialFrom_past (by decide)).symm.trans hbusy)
  exact absurd (hprime.mp hagree.symm) (by decide)

end LearnApue.Para.TrialDivision
