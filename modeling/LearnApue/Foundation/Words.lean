import Mathlib.Data.List.TakeDrop
import Mathlib.Data.List.TakeWhile
import Mathlib.Data.List.Basic

set_option autoImplicit false

/-!
# The words of a text

A text is cut into words by separators: its words are the longest non-empty runs
without one.  A reader that skips separators and then takes a run, or the front
of a run, walks along the list of words.
-/

namespace LearnApue.Foundation.Words

variable {α : Type} {sep : α → Bool}

/-- The longest non-empty runs of a text without separators. -/
def words (sep : α → Bool) (text : List α) : List (List α) :=
  (text.splitOnP sep).filter fun word => !word.isEmpty

@[simp] theorem words_nil : words sep [] = [] := by
  rw [words, List.splitOnP_nil]
  rfl

theorem words_cons_of_sep {b : α} (h : sep b = true) (text : List α) :
    words sep (b :: text) = words sep text := by
  unfold words
  rw [List.splitOnP_cons_eq_if_modifyHead, if_pos h]
  rfl

/-- A run that the text or a separator ends is a word. -/
theorem words_run {run rest : List α} (hne : run ≠ []) (hrun : ∀ b ∈ run, sep b = false)
    (hrest : ∀ b tail, rest = b :: tail → sep b = true) :
    words sep (run ++ rest) = run :: words sep rest := by
  have hkeep : ∀ others : List (List α), (run :: others).filter (fun word => !word.isEmpty) =
      run :: others.filter fun word => !word.isEmpty := by
    intro others
    cases run with
    | nil => exact absurd rfl hne
    | cons b run => rfl
  cases rest with
  | nil =>
    unfold words
    rw [List.append_nil, List.splitOnP_eq_singleton hrun, hkeep,
      List.splitOnP_nil]
    rfl
  | cons b tail =>
    have hb : sep b = true := hrest b tail rfl
    rw [words_cons_of_sep hb]
    unfold words
    rw [List.splitOnP_append_cons_of_forall_mem hrun b hb, hkeep]

theorem words_dropWhile (text : List α) : words sep (text.dropWhile sep) = words sep text := by
  induction text with
  | nil => rfl
  | cons b text ih =>
    cases hb : sep b with
    | true => rw [List.dropWhile_cons_of_pos hb, ih, words_cons_of_sep hb]
    | false => rw [List.dropWhile_cons_of_neg (by rw [hb]; exact Bool.false_ne_true)]

/-- The run at which a text starts after its separators. -/
def firstRun (sep : α → Bool) (text : List α) : List α :=
  (text.dropWhile sep).takeWhile fun b => !sep b

/-- What follows the first run. -/
def behindRun (sep : α → Bool) (text : List α) : List α :=
  (text.dropWhile sep).dropWhile fun b => !sep b

theorem firstRun_append (text : List α) :
    firstRun sep text ++ behindRun sep text = text.dropWhile sep :=
  List.takeWhile_append_dropWhile

theorem firstRun_plain {text : List α} {b : α} (h : b ∈ firstRun sep text) : sep b = false := by
  have hb := List.mem_takeWhile_imp h
  simpa using hb

theorem behindRun_sep {text : List α} {b : α} {tail : List α} (h : behindRun sep text = b :: tail) :
    sep b = true := by
  have hb := List.head?_dropWhile_not (fun b => !sep b) (text.dropWhile sep)
  rw [show (text.dropWhile sep).dropWhile (fun b => !sep b) = b :: tail from h] at hb
  simpa using hb

theorem firstRun_eq_nil_iff {text : List α} :
    firstRun sep text = [] ↔ text.dropWhile sep = [] := by
  unfold firstRun
  constructor
  · intro h
    cases hskip : text.dropWhile sep with
    | nil => rfl
    | cons b tail =>
      have hb := List.head?_dropWhile_not sep text
      rw [hskip] at h hb
      have hplain : sep b = false := hb
      rw [List.takeWhile_cons, hplain] at h
      cases h
  · intro h
    rw [h]
    rfl

/-- A text has no word when nothing follows its separators. -/
theorem words_of_skip_nil {text : List α} (h : text.dropWhile sep = []) : words sep text = [] := by
  rw [← words_dropWhile, h, words_nil]

/-- Otherwise its first word is its first run. -/
theorem words_of_skip_ne_nil {text : List α} (h : text.dropWhile sep ≠ []) :
    words sep text = firstRun sep text :: words sep (behindRun sep text) := by
  rw [← words_dropWhile, ← firstRun_append]
  exact words_run (fun hnil => h (firstRun_eq_nil_iff.mp hnil)) (fun b hb => firstRun_plain hb)
    fun b tail htail => behindRun_sep htail

theorem words_eq_nil_iff {text : List α} : words sep text = [] ↔ text.dropWhile sep = [] := by
  refine ⟨fun h => ?_, words_of_skip_nil⟩
  by_contra hne
  rw [words_of_skip_ne_nil hne] at h
  cases h

/-- What a reader leaves of a text that it stops in the middle of the first run:
the rest of the run is the next word. -/
theorem words_cut {text : List α} {width : Nat} (h : width < (firstRun sep text).length) :
    words sep ((text.dropWhile sep).drop width) =
      (firstRun sep text).drop width :: words sep (behindRun sep text) := by
  rw [← firstRun_append, List.drop_append_of_le_length h.le]
  apply words_run
  · rw [ne_eq, List.drop_eq_nil_iff]
    omega
  · exact fun b hb => firstRun_plain (List.mem_of_mem_drop hb)
  · exact fun b tail htail => behindRun_sep htail

end LearnApue.Foundation.Words
