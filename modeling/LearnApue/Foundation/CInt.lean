import LearnApue.Foundation.CString

set_option autoImplicit false

/-!
# Arithmetic of C's `int`

A value of type `int` is an integer of 32 bits.  An operation whose exact
result is outside that range has no defined behaviour, so it has no result
here.
-/

namespace LearnApue.Foundation

/-- `INT_MIN`. -/
def intMin : Int := -2147483648

/-- The values of type `int`. -/
def InInt (value : Int) : Prop := intMin ≤ value ∧ value ≤ intMax

instance (value : Int) : Decidable (InInt value) :=
  inferInstanceAs (Decidable (_ ∧ _))

/-- An exact result, where it is an `int`. -/
def toInt? (exact : Int) : Option Int := if InInt exact then some exact else none

theorem toInt?_eq_some_iff {exact value : Int} :
    toInt? exact = some value ↔ value = exact ∧ InInt exact := by
  unfold toInt?
  split
  · rename_i h
    rw [Option.some.injEq]
    exact ⟨fun heq => ⟨heq.symm, h⟩, fun heq => heq.1.symm⟩
  · rename_i h
    exact ⟨nofun, fun heq => absurd heq.2 h⟩

theorem toInt?_eq_none_iff {exact : Int} : toInt? exact = none ↔ ¬ InInt exact := by
  unfold toInt?
  split
  · rename_i h
    exact ⟨nofun, fun hnot => absurd h hnot⟩
  · rename_i h
    exact ⟨fun _ => h, fun _ => rfl⟩

theorem toInt?_eq_some {exact : Int} (h : InInt exact) : toInt? exact = some exact :=
  if_pos h

/-- `a / b`: no result for a zero divisor or a quotient that is no `int`. -/
def div? (a b : Int) : Option Int := if b = 0 then none else toInt? (a.tdiv b)

/-- `a % b`: defined where `a / b` is. -/
def mod? (a b : Int) : Option Int := (div? a b).map fun _ => a.tmod b

/-- A quotient of an `int` that is not negative by a positive one. -/
theorem div?_of_pos {a b : Int} (ha : 0 ≤ a) (hint : InInt a) (hb : 0 < b) :
    div? a b = some (a / b) := by
  have hquotient : InInt (a / b) := by
    have hnonneg : 0 ≤ a / b := Int.ediv_nonneg ha hb.le
    have hle : a / b ≤ a := Int.ediv_le_self b ha
    unfold InInt intMin at *
    omega
  rw [div?, if_neg (by omega), Int.tdiv_eq_ediv_of_nonneg ha, toInt?_eq_some hquotient]

theorem mod?_of_pos {a b : Int} (ha : 0 ≤ a) (hint : InInt a) (hb : 0 < b) :
    mod? a b = some (a % b) := by
  rw [mod?, div?_of_pos ha hint hb, Option.map_some, Int.tmod_eq_emod_of_nonneg ha]

end LearnApue.Foundation
