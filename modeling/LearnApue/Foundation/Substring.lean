import LearnApue.Foundation.CString

set_option autoImplicit false

/-!
# Replacing every occurrence of a text

The left-to-right replacement of the non-overlapping occurrences of `source` by
`replacement`, over any alphabet, and the question whether the result can contain
`source` again.  For a replacement that is told apart from the source (`Apart`),
it can exactly when a proper suffix of the source starts the source or the
replacement (`Overlaps`): `replaced_clean` and `exists_echo` are the two halves.
-/

namespace LearnApue.Foundation.Substring

variable {α : Type}

/-- An occurrence in `first ++ second` lies in one of the two or straddles them. -/
theorem infix_append_cases {text first second : List α} (h : text <:+: first ++ second) :
    text <:+: first ∨ text <:+: second ∨
      ∃ front back, front ≠ [] ∧ back ≠ [] ∧ text = front ++ back ∧ front <:+ first ∧
        back <+: second := by
  obtain ⟨before, after, h⟩ := h
  rw [List.append_assoc, List.append_eq_append_iff] at h
  rcases h with ⟨front, hfirst, hrest⟩ | ⟨gap, hbefore, hsecond⟩
  · rw [List.append_eq_append_iff] at hrest
    rcases hrest with ⟨back, hfront, hafter⟩ | ⟨back, htext, hsecond⟩
    · exact Or.inl ⟨before, back, by rw [hfirst, hfront, List.append_assoc]⟩
    · by_cases hfrontNil : front = []
      · refine Or.inr (Or.inl ⟨[], after, ?_⟩)
        rw [htext, hsecond, hfrontNil, List.nil_append, List.nil_append]
      · by_cases hbackNil : back = []
        · refine Or.inl ⟨before, [], ?_⟩
          rw [htext, hfirst, hbackNil, List.append_nil, List.append_nil]
        · exact Or.inr (Or.inr ⟨front, back, hfrontNil, hbackNil, htext, ⟨before, hfirst.symm⟩,
            ⟨after, hsecond.symm⟩⟩)
  · exact Or.inr (Or.inl ⟨gap, after, by rw [hsecond, List.append_assoc]⟩)

/-- `before` ends where `source` occurs first in `before ++ source ++ after`. -/
def First (source before after : List α) : Prop :=
  ∀ before' after', before ++ source ++ after = before' ++ source ++ after' →
    before.length ≤ before'.length

/-- A text with an occurrence has a first one. -/
theorem exists_first {source text : List α} (h : source <:+: text) :
    ∃ before after, text = before ++ source ++ after ∧ First source before after := by
  classical
  have hsome : ∃ n, ∃ before after, text = before ++ source ++ after ∧ before.length = n := by
    obtain ⟨before, after, heq⟩ := h
    exact ⟨_, before, after, heq.symm, rfl⟩
  obtain ⟨before, after, heq, hlength⟩ := Nat.find_spec hsome
  refine ⟨before, after, heq, ?_⟩
  intro before' after' heq'
  rw [hlength]
  exact Nat.find_min' hsome ⟨before', after', heq.trans heq', rfl⟩

/-- Before the first occurrence there is none. -/
theorem First.not_infix {source before after : List α} (hne : source ≠ [])
    (h : First source before after) : ¬ source <:+: before := by
  rintro ⟨front, back, heq⟩
  have hle := h front (back ++ source ++ after) (by rw [← heq]; simp only [List.append_assoc])
  have hlength := congrArg List.length heq
  have hpos := List.length_pos_of_ne_nil hne
  simp only [List.length_append] at hlength
  omega

/-- `result` is `text` with the occurrences of `source` replaced, left to right. -/
inductive Replaced (source replacement : List α) : List α → List α → Prop
  | rest {text : List α} (h : ¬ source <:+: text) : Replaced source replacement text text
  | next {before after result : List α} (hfirst : First source before after)
      (htail : Replaced source replacement after result) :
      Replaced source replacement (before ++ source ++ after) (before ++ replacement ++ result)

/-- The replacement is a function of the text. -/
theorem Replaced.unique {source replacement : List α} {text first second : List α}
    (hfirst : Replaced source replacement text first)
    (hsecond : Replaced source replacement text second) : first = second := by
  induction hfirst generalizing second with
  | rest hnone =>
    cases hsecond with
    | rest => rfl
    | next => exact absurd (List.infix_append _ _ _) hnone
  | @next before after result hmin htail ih =>
    generalize htext : before ++ source ++ after = text at hsecond
    cases hsecond with
    | rest hnone =>
      rw [← htext] at hnone
      exact absurd (List.infix_append _ _ _) hnone
    | @next before' after' result' hmin' htail' =>
      have hle := hmin _ _ htext
      have hge := hmin' _ _ htext.symm
      rw [List.append_assoc, List.append_assoc] at htext
      obtain ⟨hbefore, hrest⟩ := List.append_inj htext (le_antisymm hle hge)
      have hafter := List.append_cancel_left hrest
      rw [← hafter] at htail'
      rw [hbefore, ih htail']

/-- A proper suffix of `left` starts `right`. -/
def Overlaps (left right : List α) : Prop :=
  ∃ part, part ≠ [] ∧ part ≠ left ∧ part <:+ left ∧ part <+: right

theorem overlaps_iff {left right : List α} :
    Overlaps left right ↔ ∃ n < left.length, 0 < n ∧ left.drop n <+: right := by
  constructor
  · rintro ⟨part, hne, hproper, ⟨front, heq⟩, hstart⟩
    have hlength := congrArg List.length heq
    have hpos := List.length_pos_of_ne_nil hne
    rw [List.length_append] at hlength
    refine ⟨front.length, by omega, ?_, ?_⟩
    · refine List.length_pos_of_ne_nil ?_
      intro hnil
      rw [hnil, List.nil_append] at heq
      exact hproper heq
    · rw [← heq, List.drop_left]
      exact hstart
  · rintro ⟨n, hlt, hpos, hstart⟩
    have hlength : (left.drop n).length = left.length - n := List.length_drop
    refine ⟨left.drop n, ?_, ?_, List.drop_suffix n left, hstart⟩
    · refine List.ne_nil_of_length_pos ?_
      omega
    · intro hall
      rw [hall] at hlength
      omega

instance [DecidableEq α] (left right : List α) : Decidable (Overlaps left right) :=
  decidable_of_iff _ overlaps_iff.symm

/-- How a replacement is told apart from its source. -/
structure Apart (source replacement : List α) : Prop where
  /-- the replacement does not contain the source -/
  notInside : ¬ source <:+: replacement
  /-- a suffix of the replacement that starts the source also ends it -/
  endsAlike : ∀ part, part ≠ [] → part <:+ replacement → part <+: source → part <:+ source
  /-- the source does not contain the replacement, except perhaps at its start -/
  notWithin : ∀ front back, front ≠ [] → source ≠ front ++ replacement ++ back
  /-- a border of the source ends the replacement -/
  borders : ∀ part, part ≠ source → part <:+ source → part <+: source → part <:+ replacement

theorem Replaced.clean {source replacement : List α} (hne : source ≠ [])
    (hapart : Apart source replacement) (hborder : ¬ Overlaps source source)
    (hecho : ¬ Overlaps source replacement) {text result : List α}
    (h : Replaced source replacement text result) : ¬ source <:+: result := by
  induction h with
  | rest hnone => exact hnone
  | next hfirst htail ih =>
    intro hin
    rw [List.append_assoc] at hin
    rcases infix_append_cases hin with hbefore | hafter | ⟨front, back, hfront, hback, heq, hs, hp⟩
    · exact hfirst.not_infix hne hbefore
    · rcases infix_append_cases hafter with hinside | hrest |
        ⟨front, back, hfront, hback, heq, hs, hp⟩
      · exact hapart.notInside hinside
      · exact ih hrest
      · -- starts in a replacement: the shared part is a border of the source
        have hstart : front <+: source := ⟨back, heq.symm⟩
        have hproper : front ≠ source := by
          intro hall
          rw [hall, List.self_eq_append_right] at heq
          exact hback heq
        exact hborder ⟨front, hfront, hproper, hapart.endsAlike front hfront hs hstart, hstart⟩
    · -- ends in a replacement, or runs past it
      have hend : back <:+ source := ⟨front, heq.symm⟩
      rcases List.prefix_or_prefix_of_prefix hp (List.prefix_append _ _) with hshort | hlong
      · have hproper : back ≠ source := by
          intro hall
          rw [hall, List.self_eq_append_left] at heq
          exact hfront heq
        exact hecho ⟨back, hback, hproper, hend, hshort⟩
      · obtain ⟨more, hmore⟩ := hlong
        refine hapart.notWithin front more hfront ?_
        rw [heq, ← hmore, List.append_assoc]

/-- With an overlap there is a text, made of the source's own letters and less
than twice as long, whose replacement spells the source again. -/
theorem exists_echo {source replacement : List α} (hapart : Apart source replacement)
    (h : Overlaps source source ∨ Overlaps source replacement) :
    ∃ before after, First source before after ∧ ¬ source <:+: after ∧
      before.length + after.length < source.length ∧
      (∀ a ∈ before ++ source ++ after, a ∈ source) ∧
      source <:+: before ++ replacement ++ after := by
  obtain ⟨part, hpartNe, hproper, ⟨front, hsource⟩, hstarts⟩ :
      ∃ part, part ≠ [] ∧ part ≠ source ∧ part <:+ source ∧
        (part <+: source ∨ part <+: replacement) := by
    rcases h with ⟨part, hne, hproper, hs, hp⟩ | ⟨part, hne, hproper, hs, hp⟩
    · exact ⟨part, hne, hproper, hs, Or.inl hp⟩
    · exact ⟨part, hne, hproper, hs, Or.inr hp⟩
  have hfrontNe : front ≠ [] := by
    intro hnil
    rw [hnil, List.nil_append] at hsource
    exact hproper hsource
  obtain ⟨before, after, htext, hfirst⟩ := exists_first
    (show source <:+: front ++ source from ⟨front, [], by rw [List.append_nil]⟩)
  have hlengths := congrArg List.length htext
  have hsourceLength := congrArg List.length hsource
  have hpartPos := List.length_pos_of_ne_nil hpartNe
  simp only [List.length_append] at hlengths hsourceLength
  have hle := hfirst front [] (by rw [List.append_nil, ← htext])
  refine ⟨before, after, hfirst, ?_, by omega, ?_, ?_⟩
  · intro hin
    have := hin.length_le
    omega
  · intro a ha
    rw [← htext] at ha
    rcases List.mem_append.mp ha with hmem | hmem
    · rw [← hsource]
      exact List.mem_append_left _ hmem
    · exact hmem
  · have hbefore : before <+: front ++ source := by
      rw [htext, List.append_assoc]
      exact List.prefix_append _ _
    obtain ⟨gap, hgap⟩ := List.prefix_of_prefix_length_le hbefore (List.prefix_append _ _) hle
    have hshift : gap ++ source = source ++ after := by
      rw [← hgap, List.append_assoc, List.append_assoc] at htext
      exact List.append_cancel_left htext
    by_cases hgapNil : gap = []
    · -- the first occurrence is the last: the overlap is with the replacement
      rw [hgapNil, List.append_nil] at hgap
      rcases hstarts with ⟨rest, hrest⟩ | hstart
      · have hzero : before.length ≤ ([] : List α).length := hfirst [] rest <| by
          calc before ++ source ++ after = front ++ source := htext.symm
            _ = front ++ part ++ rest := by rw [List.append_assoc, hrest]
            _ = [] ++ source ++ rest := by rw [hsource, List.nil_append]
        rw [hgap, List.length_nil, Nat.le_zero] at hzero
        exact absurd (List.eq_nil_of_length_eq_zero hzero) hfrontNe
      · have hp : source <+: front ++ replacement := by
          rw [← hsource]
          exact (List.prefix_append_right_inj front).mpr hstart
        rw [hgap]
        exact (hp.trans (List.prefix_append _ _)).isInfix
    · -- two overlapping occurrences: what they share ends the replacement
      have hgapPos := List.length_pos_of_ne_nil hgapNil
      have hgapLength := congrArg List.length hgap
      rw [List.length_append] at hgapLength
      have hgapStart : gap <+: source := by
        refine List.prefix_of_prefix_length_le ⟨source, hshift⟩ (List.prefix_append _ _) ?_
        omega
      obtain ⟨shared, hshared⟩ := hgapStart
      have hend : shared ++ after = source := by
        rw [← hshared, List.append_assoc] at hshift
        have hcancel := List.append_cancel_left hshift
        rw [hshared] at hcancel
        exact hcancel.symm
      have hsharedProper : shared ≠ source := by
        intro hall
        have hlength := congrArg List.length hshared
        rw [List.length_append, hall] at hlength
        omega
      obtain ⟨lead, hlead⟩ := hapart.borders shared hsharedProper ⟨gap, hshared⟩ ⟨after, hend⟩
      refine ⟨before ++ lead, [], ?_⟩
      rw [← hlead, List.append_nil]
      simp only [List.append_assoc]
      rw [hend]

/-! ## `strstr` -/

theorem strstr_eq_none_iff {haystack needle : Bytes} :
    strstr haystack needle = none ↔ ¬ needle <:+: haystack := by
  constructor
  · intro hnone hin
    obtain ⟨before, after, heq, hfirst⟩ := exists_first hin
    have hsome : strstr haystack needle = some (before, after) := by
      refine strstr_eq_some_iff.mpr ⟨heq, ?_⟩
      intro before' after' heq'
      exact hfirst before' after' (heq.symm.trans heq')
    rw [hnone] at hsome
    simp at hsome
  · intro habsent
    cases hfind : strstr haystack needle with
    | none => rfl
    | some found =>
      obtain ⟨before, after⟩ := found
      have hsplit := strstr_eq_some_iff.mp hfind
      rw [hsplit.1] at habsent
      exact absurd (List.infix_append _ _ _) habsent

end LearnApue.Foundation.Substring
