import LearnApue.Foundation.CString

set_option autoImplicit false

/-!
# A writer into a buffer of fixed size

`vsnprintf` appends to what a buffer holds; the first text that does not fit makes the
writer fail for good.  A piece of code that `Writes` a text appends all of it or fails,
and pieces compose by concatenation of what they write.
-/

namespace LearnApue.Foundation

/-- A buffer that is being written: the string in it, how many of its bytes were written
in full, and whether a text did not fit. -/
structure BoundedWriter where
  capacity : Nat
  data : Bytes
  length : Nat
  failed : Bool
  deriving DecidableEq

namespace BoundedWriter

/-- A writer of an empty buffer. -/
def start (capacity : Nat) : BoundedWriter := ⟨capacity, [], 0, false⟩

/-- `vsnprintf` at the end of the buffer. -/
def append (formatted : Bytes) (writer : BoundedWriter) : BoundedWriter :=
  if writer.failed then writer
  else
    let available := writer.capacity - writer.length
    if formatted.length ≥ available then
      { writer with data := writer.data ++ truncated available formatted, failed := true }
    else
      { writer with
          data := writer.data ++ formatted
          length := writer.length + formatted.length }

/-- What holds of a writer that has not failed. -/
def Sound (writer : BoundedWriter) : Prop :=
  writer.failed = false → writer.length < writer.capacity

/-- The writer after a text was written, in full or not. -/
structure Wrote (before : BoundedWriter) (text : Bytes) (after : BoundedWriter) : Prop where
  capacity : after.capacity = before.capacity
  failed : after.failed = true ↔
    before.failed = true ∨ before.capacity ≤ before.length + text.length
  written : after.failed = false →
    after.data = before.data ++ text ∧ after.length = before.length + text.length

/-- A piece of code that writes a text. -/
def Writes (text : Bytes) (piece : BoundedWriter → BoundedWriter) : Prop :=
  ∀ writer, writer.Sound → Wrote writer text (piece writer)

section Rules

variable {before middle after : BoundedWriter} {text text' : Bytes}
  {piece piece' : BoundedWriter → BoundedWriter}

theorem Wrote.sound (h : Wrote before text after) : after.Sound := by
  intro hok
  have hroom : ¬ (before.failed = true ∨ before.capacity ≤ before.length + text.length) := by
    rw [← h.failed, hok]
    exact Bool.false_ne_true
  rw [h.capacity, (h.written hok).2]
  omega

theorem Wrote.trans (h : Wrote before text middle) (h' : Wrote middle text' after) :
    Wrote before (text ++ text') after := by
  refine ⟨h'.capacity.trans h.capacity, ?_, ?_⟩
  · rw [h'.failed, h.capacity, List.length_append]
    cases hmiddle : middle.failed with
    | true =>
      have hbefore := h.failed.mp hmiddle
      simp only [true_or, true_iff]
      exact hbefore.imp_right fun hfull => by omega
    | false =>
      have hroom := h.failed
      rw [hmiddle] at hroom
      rw [(h.written hmiddle).2, Nat.add_assoc]
      constructor
      · rintro (hnever | hfull)
        · cases hnever
        · exact Or.inr hfull
      · rintro (hbefore | hfull)
        · exact absurd (hroom.mpr (Or.inl hbefore)) Bool.false_ne_true
        · exact Or.inr hfull
  · intro hok
    have hmiddle : middle.failed = false := by
      by_contra hnot
      have hfailed := h'.failed.mpr (Or.inl (Bool.eq_true_of_not_eq_false hnot))
      rw [hok] at hfailed
      cases hfailed
    obtain ⟨hdata, hlength⟩ := h.written hmiddle
    obtain ⟨hdata', hlength'⟩ := h'.written hok
    rw [hdata', hdata, hlength', hlength, List.append_assoc, List.length_append, Nat.add_assoc]
    exact ⟨rfl, rfl⟩

theorem writes_append (text : Bytes) : Writes text (append text) := by
  intro writer hsound
  unfold append
  cases hfailed : writer.failed with
  | true => exact ⟨rfl, by simp [hfailed], by simp [hfailed]⟩
  | false =>
    have hroom := hsound hfailed
    simp only [Bool.false_eq_true, if_false, ge_iff_le]
    split
    · refine ⟨rfl, ?_, by simp⟩
      simp only [true_iff]
      exact Or.inr (by omega)
    · refine ⟨rfl, ?_, fun _ => ⟨rfl, rfl⟩⟩
      simp only [hfailed, Bool.false_eq_true, false_or, false_iff]
      omega

/-- Nothing is written. -/
theorem writes_nothing : Writes [] id := by
  intro writer hsound
  refine ⟨rfl, ?_, fun _ => ⟨(List.append_nil _).symm, rfl⟩⟩
  cases hfailed : writer.failed with
  | true => simp [hfailed]
  | false =>
    have hroom := hsound hfailed
    simp [hfailed, hroom]

/-- One piece after another. -/
theorem Writes.andThen (h : Writes text piece) (h' : Writes text' piece') :
    Writes (text ++ text') fun writer => piece' (piece writer) := by
  intro writer hsound
  have hfirst := h writer hsound
  exact hfirst.trans (h' _ hfirst.sound)

theorem Writes.of_eq (h : Writes text piece) (heq : text = text') : Writes text' piece := heq ▸ h

/-- A loop over a list. -/
theorem writes_foldl {α : Type} {step : BoundedWriter → α → BoundedWriter} {textOf : α → Bytes}
    (h : ∀ value, Writes (textOf value) fun writer => step writer value) (list : List α) :
    Writes (list.flatMap textOf) fun writer => list.foldl step writer := by
  induction list with
  | nil => exact writes_nothing
  | cons head rest ih => exact (h head).andThen ih

/-- A branch. -/
theorem writes_ite {condition : Prop} [Decidable condition] (h : Writes text piece)
    (h' : Writes text' piece') :
    Writes (if condition then text else text') (if condition then piece else piece') := by
  by_cases hcondition : condition
  · rw [if_pos hcondition, if_pos hcondition]
    exact h
  · rw [if_neg hcondition, if_neg hcondition]
    exact h'

/-- From an empty buffer, the text is written exactly if it fits. -/
theorem Writes.start (h : Writes text piece) {capacity : Nat} (hcapacity : 0 < capacity) :
    ((piece (start capacity)).failed = true ↔ capacity ≤ text.length) ∧
      ((piece (BoundedWriter.start capacity)).failed = false →
        (piece (BoundedWriter.start capacity)).data = text ∧
          (piece (BoundedWriter.start capacity)).length = text.length) := by
  have hwrote := h (BoundedWriter.start capacity) fun _ => hcapacity
  refine ⟨?_, fun hok => ?_⟩
  · rw [hwrote.failed]
    simp [BoundedWriter.start]
  · obtain ⟨hdata, hlength⟩ := hwrote.written hok
    rw [hdata, hlength]
    exact ⟨rfl, Nat.zero_add _⟩

end Rules

end BoundedWriter

end LearnApue.Foundation
