import Mathlib

set_option autoImplicit false

/-!
# Lines of a stream

A stream is cut at a separator into the lines that the separator ends and the rest, a
line that has not ended.  One more element either ends that line or extends it
(`complete_concat_self`, `unfinished_concat`), which is what a reader that sees the
stream in fragments does.
-/

namespace LearnApue.Foundation.Lines

variable {α : Type} [DecidableEq α] {separator b : α}

/-- The lines of a stream that have ended. -/
def complete (separator : α) (stream : List α) : List (List α) :=
  (stream.splitOn separator).dropLast

/-- The line that has not ended. -/
def unfinished (separator : α) (stream : List α) : List α :=
  (stream.splitOn separator).getLast (List.splitOn_ne_nil separator stream)

/-- No line, ended or not, is longer than `bound`. -/
def Within (separator : α) (bound : Nat) (stream : List α) : Prop :=
  ∀ line ∈ stream.splitOn separator, line.length ≤ bound

theorem complete_append_unfinished (separator : α) (stream : List α) :
    complete separator stream ++ [unfinished separator stream] = stream.splitOn separator :=
  List.dropLast_append_getLast _

@[simp] theorem complete_nil : complete separator [] = [] := rfl

@[simp] theorem unfinished_nil : unfinished separator [] = [] := rfl

/-! ## One more element -/

theorem splitOn_concat_self (stream : List α) :
    (stream ++ [separator]).splitOn separator = stream.splitOn separator ++ [[]] :=
  List.splitOn_append_cons_self stream []

theorem splitOn_concat (h : b ≠ separator) (stream : List α) :
    (stream ++ [b]).splitOn separator =
      complete separator stream ++ [unfinished separator stream ++ [b]] := by
  induction stream with
  | nil => exact List.splitOn_eq_singleton (by simpa using h.symm)
  | cons head rest ih =>
    have hsplit := complete_append_unfinished separator rest
    have hwhole := complete_append_unfinished separator (head :: rest)
    rw [List.cons_append, List.splitOn_cons_eq_if_modifyHead, ih]
    rw [List.splitOn_cons_eq_if_modifyHead, ← hsplit] at hwhole
    split at hwhole
    · rw [← List.cons_append] at hwhole
      obtain ⟨hcomplete, hlast⟩ := List.append_inj' hwhole rfl
      rw [hcomplete, List.singleton_inj.mp hlast]
      rename_i hhead
      rw [if_pos hhead, List.cons_append]
    · rename_i hhead
      rw [if_neg hhead]
      cases hlines : complete separator rest with
      | nil =>
        rw [hlines] at hwhole
        obtain ⟨hcomplete, hlast⟩ := List.append_inj' (hwhole.trans rfl : _ ++ [_] = [] ++ [_]) rfl
        rw [hcomplete, List.singleton_inj.mp hlast]
        rfl
      | cons line lines =>
        rw [hlines] at hwhole
        rw [List.cons_append, List.modifyHead_cons, ← List.cons_append] at hwhole
        obtain ⟨hcomplete, hlast⟩ := List.append_inj' hwhole rfl
        rw [hcomplete, List.singleton_inj.mp hlast]
        rfl

theorem complete_concat_self (stream : List α) :
    complete separator (stream ++ [separator]) =
      complete separator stream ++ [unfinished separator stream] := by
  rw [complete, splitOn_concat_self, List.dropLast_concat, complete_append_unfinished]

theorem unfinished_concat_self (stream : List α) :
    unfinished separator (stream ++ [separator]) = [] := by
  simp only [unfinished, splitOn_concat_self, List.getLast_append_singleton]

theorem complete_concat (h : b ≠ separator) (stream : List α) :
    complete separator (stream ++ [b]) = complete separator stream := by
  rw [complete, splitOn_concat h, List.dropLast_concat]

theorem unfinished_concat (h : b ≠ separator) (stream : List α) :
    unfinished separator (stream ++ [b]) = unfinished separator stream ++ [b] := by
  simp only [unfinished, splitOn_concat h, List.getLast_append_singleton]

/-! ## Bounded lines -/

theorem Within.unfinished_length {bound : Nat} {stream : List α}
    (h : Within separator bound stream) : (unfinished separator stream).length ≤ bound :=
  h _ (List.getLast_mem _)

/-- A stream with bounded lines has bounded lines up to every element. -/
theorem Within.of_append {bound : Nat} {front back : List α}
    (h : Within separator bound (front ++ back)) : Within separator bound front := by
  induction back using List.reverseRecOn with
  | nil => simpa using h
  | append_singleton back b ih =>
    refine ih ?_
    rw [← List.append_assoc] at h
    intro line hline
    by_cases hb : b = separator
    · subst hb
      refine h line ?_
      rw [splitOn_concat_self]
      exact List.mem_append_left _ hline
    · rw [← complete_append_unfinished] at hline
      rcases List.mem_append.mp hline with hcomplete | hlast
      · refine h line ?_
        rw [splitOn_concat hb]
        exact List.mem_append_left _ hcomplete
      · have hlonger := h.unfinished_length
        rw [unfinished_concat hb, List.length_append, List.length_singleton] at hlonger
        rw [List.mem_singleton.mp hlast]
        omega

end LearnApue.Foundation.Lines
