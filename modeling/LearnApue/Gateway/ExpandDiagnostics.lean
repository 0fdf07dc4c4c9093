import LearnApue.Gateway.Expand

set_option autoImplicit false

/-!
# Gateway: what a failed expansion tells (`gw_expand_environment` in `config.c`)

Two input URLs that differ in their passwords fail alike unless the failure depends on the
password.  It does in two ways.  The message about a malformed reference shows the text
with the password in it.  And where `${` in front of the password is closed by a brace
behind it, the password is part of a variable's name, and the result depends on what the
environment holds for that name.

Both are said of the text and of the environment: which references the text has
(`pieces`), which of them the environment gives, and how long the values are.
-/

namespace LearnApue.Gateway

open LearnApue.Foundation

/-! ## What the environment gives of a text -/

/-- The environment has a text for the piece. -/
def Piece.given (environment : Environment) : Piece → Bool
  | .literal _ => true
  | .reference name => (environment name).isSome
  | .malformed => false

/-- The length of that text. -/
def Piece.size (environment : Environment) : Piece → Nat
  | .literal _ => 1
  | .reference name => ((environment name).map List.length).getD 0
  | .malformed => 0

/-- The first piece of a text for which the environment has none: a malformed reference,
or a reference to a variable that is not set. -/
def firstMissing (environment : Environment) (text : Bytes) : Option Piece :=
  (pieces 0 text).find? fun piece => !piece.given environment

/-- The bytes that all the pieces in front of it expand to. -/
def givenSize (environment : Environment) (text : Bytes) : Nat :=
  (((pieces 0 text).takeWhile (Piece.given environment)).map (Piece.size environment)).sum

/-- The fault of a piece for which the environment has no text. -/
def Piece.fault : Piece → Fault
  | .reference name => .unset name
  | _ => .malformed

/-- A text that does not fit overflows, wherever it does, and any other one fails at its
first missing piece. -/
theorem firstFault_eq {environment : Environment} {capacity used : Nat} (list : List Piece)
    (hused : used < capacity) :
    firstFault environment capacity used list =
      if capacity ≤
          used + ((list.takeWhile (Piece.given environment)).map (Piece.size environment)).sum
      then some .overflow
      else (list.find? fun piece => !piece.given environment).map Piece.fault := by
  induction list generalizing used with
  | nil => simp [firstFault, hused]
  | cons piece rest ih =>
    have hgiven : ∀ size, piece.given environment = true → piece.size environment = size →
        firstFault environment capacity used (piece :: rest) =
          (if capacity ≤ used + size then some .overflow
            else firstFault environment capacity (used + size) rest) →
        firstFault environment capacity used (piece :: rest) =
          if capacity ≤ used +
              (((piece :: rest).takeWhile (Piece.given environment)).map
                (Piece.size environment)).sum
          then some .overflow
          else ((piece :: rest).find? fun piece => !piece.given environment).map Piece.fault := by
      intro size hpiece hsize hstep
      rw [hstep, List.takeWhile_cons_of_pos hpiece, List.map_cons, List.sum_cons, hsize,
        List.find?_cons_of_neg (by simp [hpiece]), ← Nat.add_assoc]
      by_cases hfull : capacity ≤ used + size
      · rw [if_pos hfull, if_pos (by omega)]
      · rw [if_neg hfull]
        exact ih (not_le.mp hfull)
    cases piece with
    | malformed => simp [firstFault, Piece.given, Piece.fault, hused]
    | literal b => exact hgiven 1 rfl rfl rfl
    | reference name =>
      cases hvalue : environment name with
      | none => simp [firstFault, Piece.given, Piece.fault, hvalue, hused]
      | some value =>
        refine hgiven value.length ?_ ?_ ?_
        · simp [Piece.given, hvalue]
        · simp [Piece.size, hvalue]
        · simp [firstFault, hvalue]

/-- The fault of a URL, by what the environment gives of it. -/
theorem urlFault_eq (environment : Environment) (url : Bytes) :
    urlFault environment url =
      if gwUrlCap ≤ givenSize environment url then some .overflow
      else (firstMissing environment url).map Piece.fault := by
  have hfault := @firstFault_eq environment _ _ (pieces 0 url)
    (show 0 < gwUrlCap by decide)
  rwa [Nat.zero_add] at hfault

theorem pieces_drop (skip : Nat) (text : Bytes) : pieces skip text = pieces 0 (text.drop skip) := by
  induction skip generalizing text with
  | zero => rfl
  | succ skip ih =>
    cases text with
    | nil => rfl
    | cons b rest => exact ih rest

/-- A text of a literal byte. -/
theorem pieces_literal {b : Byte} {rest : Bytes} (h : opensReference b rest = false) :
    pieces 0 (b :: rest) = .literal b :: pieces 0 rest := by
  rw [pieces, h]
  rfl

/-- A text of a closed reference: it is one piece, or it is malformed. -/
theorem pieces_reference {name : Bytes} (hname : byte '}' ∉ name) (rest : Bytes) :
    pieces 0 (byte '$' :: byte '{' :: (name ++ byte '}' :: rest)) =
      if name = [] ∨ nameCap ≤ name.length then [.malformed]
      else .reference name :: pieces 0 rest := by
  have hall : ∀ b ∈ name, (b != byte '}') = true := by
    intro b hb
    rw [bne_iff_ne]
    exact fun heq => hname (heq ▸ hb)
  have hreference : referenceName (byte '{' :: (name ++ byte '}' :: rest)) = name := by
    rw [referenceName, List.tail_cons, List.takeWhile_append_of_pos hall,
      List.takeWhile_cons_of_neg (by simp), List.append_nil]
  have hbad : badReference (byte '{' :: (name ++ byte '}' :: rest)) = true ↔
      name = [] ∨ nameCap ≤ name.length := by
    simp [badReference, hreference]
  have hopens : opensReference (byte '$') (byte '{' :: (name ++ byte '}' :: rest)) = true := rfl
  rw [pieces, if_pos hopens, hreference]
  by_cases hmalformed : name = [] ∨ nameCap ≤ name.length
  · rw [if_pos (hbad.mpr hmalformed), if_pos hmalformed]
  · rw [if_neg (mt hbad.mp hmalformed), if_neg hmalformed, pieces_drop]
    congr 2
    simp

/-- A text of a reference that is not closed. -/
theorem pieces_unclosed {rest : Bytes} (h : byte '}' ∉ rest) :
    pieces 0 (byte '$' :: byte '{' :: rest) = [.malformed] := by
  have hall : ∀ b ∈ rest, (b != byte '}') = true := by
    intro b hb
    rw [bne_iff_ne]
    exact fun heq => h (heq ▸ hb)
  have hbad : badReference (byte '{' :: rest) = true := by
    simp [badReference, referenceName, List.takeWhile_eq_self_iff.mpr hall]
  have hopens : opensReference (byte '$') (byte '{' :: rest) = true := rfl
  rw [pieces, if_pos hopens, if_pos hbad]

/-- A byte that opens a reference is a dollar sign in front of a brace. -/
theorem opensReference_cons {b : Byte} {rest : Bytes} (h : opensReference b rest = true) :
    b = byte '$' ∧ ∃ inner, rest = byte '{' :: inner := by
  simp only [opensReference, Bool.and_eq_true, beq_iff_eq] at h
  refine ⟨h.1, ?_⟩
  cases rest with
  | nil => exact absurd h.2 (by decide)
  | cons c inner =>
    have hc : c = byte '{' := by simpa using h.2
    exact ⟨inner, by rw [hc]⟩

/-- A byte in front of a reference opens none. -/
theorem opensReference_dollar (b : Byte) (tail : Bytes) :
    opensReference b (byte '$' :: tail) = false :=
  Bool.and_eq_false_iff.mpr (.inr rfl)

/-- A byte in front of another one opens no reference, whatever follows that one. -/
theorem opensReference_append {b c : Byte} {rest tail other : Bytes}
    (h : opensReference b (rest ++ c :: tail) = false) :
    opensReference b (rest ++ c :: other) = false := by
  cases rest <;> exact h

/-- Where no reference of a text is malformed, a reference behind it is one of the whole. -/
theorem pieces_behind {front tail : Bytes} (h : .malformed ∉ pieces 0 front) :
    pieces 0 (front ++ byte '$' :: byte '{' :: tail) =
      pieces 0 front ++ pieces 0 (byte '$' :: byte '{' :: tail) := by
  induction hlength : front.length using Nat.strong_induction_on generalizing front with
  | _ length ih =>
    cases front with
    | nil => rfl
    | cons b rest =>
      rw [List.length_cons] at hlength
      by_cases hopens : opensReference b rest = true
      · obtain ⟨rfl, inner, rfl⟩ := opensReference_cons hopens
        by_cases hclosed : byte '}' ∈ inner
        · obtain ⟨name, rest, rfl, hname⟩ := List.eq_append_cons_of_mem hclosed
          rw [pieces_reference hname] at h
          split at h
          · exact absurd List.mem_cons_self h
          · rename_i hgood
            have hrest := fun hmem => h (List.mem_cons_of_mem _ hmem)
            simp only [List.length_cons, List.length_append] at hlength
            have htail := ih rest.length (by omega) hrest rfl
            simp only [List.cons_append, List.append_assoc] at htail ⊢
            rw [pieces_reference hname, pieces_reference hname, if_neg hgood, if_neg hgood, htail]
            rfl
        · rw [pieces_unclosed hclosed] at h
          exact absurd List.mem_cons_self h
      · rw [Bool.not_eq_true] at hopens
        have hlater : opensReference b (rest ++ byte '$' :: byte '{' :: tail) = false := by
          cases rest with
          | nil => exact opensReference_dollar b _
          | cons c rest => exact hopens
        rw [pieces_literal hopens] at h
        have htail := ih rest.length (by omega) (fun hmem => h (List.mem_cons_of_mem _ hmem)) rfl
        rw [List.cons_append, pieces_literal hlater, pieces_literal hopens, htail]
        rfl

/-! ## Two texts that differ in the password -/

/-- `before:password@after`; `before` is the scheme and the user name. -/
def passwordUrl (before password after : Bytes) : Bytes :=
  before ++ byte ':' :: (password ++ byte '@' :: after)

/-- A password that takes no part in the reference syntax. -/
def PlainPassword (password : Bytes) : Prop :=
  ∀ b ∈ password, b ≠ byte '$' ∧ b ≠ byte '{' ∧ b ≠ byte '}'

/-- A reference is opened in front of the password and closed behind it, so that its name
is `opening:password@closing`; `front` stands in front of it and `tail` behind it. -/
structure PasswordInName (before after front opening closing tail : Bytes) : Prop where
  before_eq : before = front ++ byte '$' :: byte '{' :: opening
  after_eq : after = closing ++ byte '}' :: tail
  opening_open : byte '}' ∉ opening
  closing_open : byte '}' ∉ closing
  front_closed : .malformed ∉ pieces 0 front

/-- A value of the variable fits the buffer, with what is in front of it and behind it. -/
def ValueFits (environment : Environment) (front tail value : Bytes) : Prop :=
  givenSize environment front + value.length + givenSize environment tail < gwUrlCap

/-- What the environment holds for two names makes no difference between `front` and
`tail`: neither is set and they are one name; or both are set, and both values fit or
neither does; or one is set to a value that fits, and the other one is the first that is
missing behind it. -/
def HoldsAlike (environment : Environment) (front tail first second : Bytes) : Prop :=
  match environment first, environment second with
  | none, none => first = second
  | some value, some other =>
      ValueFits environment front tail value ↔ ValueFits environment front tail other
  | none, some other =>
      ValueFits environment front tail other ∧
        firstMissing environment tail = some (.reference first)
  | some value, none =>
      ValueFits environment front tail value ∧
        firstMissing environment tail = some (.reference second)

/-- Two pieces that the expansion treats alike wherever they stand. -/
inductive Piece.Alike : Piece → Piece → Prop
  | literal (first second : Byte) : Alike (.literal first) (.literal second)
  | same (piece : Piece) : Alike piece piece

theorem firstFault_alike {first second : List Piece} (h : List.Forall₂ Piece.Alike first second)
    (environment : Environment) (capacity used : Nat) :
    firstFault environment capacity used first = firstFault environment capacity used second := by
  induction h generalizing used with
  | nil => rfl
  | @cons piece other _ _ hpiece hrest ih =>
    cases hpiece with
    | literal b c => simp only [firstFault, ih]
    | same =>
      cases piece with
      | literal b => simp only [firstFault, ih]
      | reference name => simp only [firstFault, ih]
      | malformed => rfl

theorem alike_refl (list : List Piece) : List.Forall₂ Piece.Alike list list :=
  List.forall₂_same.mpr fun piece _ => .same piece

theorem pieces_plain {password : Bytes} (hplain : PlainPassword password) (tail : Bytes) :
    pieces 0 (password ++ tail) = password.map .literal ++ pieces 0 tail := by
  induction password with
  | nil => rfl
  | cons b rest ih =>
    have hb : b ≠ byte '$' := (hplain b List.mem_cons_self).1
    have hopens : opensReference b (rest ++ tail) = false := by
      simp [opensReference, hb]
    rw [List.cons_append, pieces_literal hopens, ih fun c hc => hplain c (List.mem_cons_of_mem b hc)]
    rfl

theorem pieces_separator (tail : Bytes) {b : Byte} (hb : b ≠ byte '$') :
    pieces 0 (b :: tail) = .literal b :: pieces 0 tail :=
  pieces_literal (by simp [opensReference, hb])

section Passwords

variable {before first second after : Bytes}

/-- From the separating colon on, the pieces are literals up to the `@`. -/
theorem pieces_password_alike (after : Bytes) (hlength : first.length = second.length)
    (hfirst : PlainPassword first) (hsecond : PlainPassword second) :
    List.Forall₂ Piece.Alike (pieces 0 (passwordUrl [] first after))
      (pieces 0 (passwordUrl [] second after)) := by
  have hmaps : List.Forall₂ Piece.Alike (first.map .literal) (second.map .literal) := by
    rw [List.forall₂_map_left_iff, List.forall₂_map_right_iff, List.forall₂_iff_zip]
    exact ⟨hlength, fun _ => .literal _ _⟩
  simp only [passwordUrl, List.nil_append]
  rw [pieces_separator _ (by decide), pieces_separator _ (by decide), pieces_plain hfirst,
    pieces_plain hsecond]
  exact .cons (.same _) (List.rel_append hmaps (alike_refl _))

theorem passwordUrl_length {password : Bytes} :
    (passwordUrl before password after).length =
      before.length + password.length + after.length + 2 := by
  simp only [passwordUrl, List.length_append, List.length_cons]
  omega

theorem not_mem_passwordUrl {password : Bytes} (hbefore : byte '}' ∉ before)
    (hpassword : PlainPassword password) (hafter : byte '}' ∉ after) :
    byte '}' ∉ passwordUrl before password after := by
  simp only [passwordUrl, List.mem_append, List.mem_cons, not_or]
  exact ⟨hbefore, by decide, fun hmem => (hpassword _ hmem).2.2 rfl, by decide, hafter⟩

theorem PasswordInName.dollar_mem {front opening closing tail : Bytes}
    (h : PasswordInName before after front opening closing tail) : byte '$' ∈ before := by
  rw [h.before_eq]
  exact List.mem_append_right front List.mem_cons_self

/-- The pieces of a URL whose password is in a name. -/
theorem PasswordInName.pieces {front opening closing tail password : Bytes}
    (h : PasswordInName before after front opening closing tail) (hplain : PlainPassword password)
    (hshort : (passwordUrl opening password closing).length < nameCap) :
    Gateway.pieces 0 (passwordUrl before password after) =
      Gateway.pieces 0 front ++
        .reference (passwordUrl opening password closing) :: Gateway.pieces 0 tail := by
  have htext : passwordUrl before password after = front ++ byte '$' :: byte '{' ::
      (passwordUrl opening password closing ++ byte '}' :: tail) := by
    rw [h.before_eq, h.after_eq]
    simp [passwordUrl]
  have hname : ¬ (passwordUrl opening password closing = [] ∨
      nameCap ≤ (passwordUrl opening password closing).length) := by
    rw [not_or, not_le]
    exact ⟨by simp [passwordUrl], hshort⟩
  rw [htext, pieces_behind h.front_closed,
    pieces_reference (not_mem_passwordUrl h.opening_open hplain h.closing_open), if_neg hname]

/-- The password stays in the name when a literal byte comes in front. -/
theorem PasswordInName.literal {b : Byte} {front opening closing tail : Bytes}
    (h : PasswordInName before after front opening closing tail)
    (hopens : opensReference b (before ++ [byte ':']) = false) :
    PasswordInName (b :: before) after (b :: front) opening closing tail := by
  have hfront : opensReference b front = false := by
    rw [h.before_eq] at hopens
    cases front with
    | nil => exact hopens
    | cons c front => exact hopens
  refine ⟨by rw [h.before_eq]; rfl, h.after_eq, h.opening_open, h.closing_open, ?_⟩
  rw [pieces_literal hfront, List.mem_cons, not_or]
  exact ⟨Piece.noConfusion, h.front_closed⟩

/-- The password stays in the name when a closed reference comes in front. -/
theorem PasswordInName.reference {name front opening closing tail : Bytes}
    (h : PasswordInName before after front opening closing tail) (hname : byte '}' ∉ name)
    (hgood : ¬ (name = [] ∨ nameCap ≤ name.length)) :
    PasswordInName (byte '$' :: byte '{' :: (name ++ byte '}' :: before)) after
      (byte '$' :: byte '{' :: (name ++ byte '}' :: front)) opening closing tail := by
  refine ⟨by rw [h.before_eq]; simp, h.after_eq, h.opening_open, h.closing_open, ?_⟩
  rw [pieces_reference hname, if_neg hgood, List.mem_cons, not_or]
  exact ⟨Piece.noConfusion, h.front_closed⟩

/-- A reference that is open at the password ends behind it, and its name is short enough or
not whatever the password is; or it does not end. -/
theorem pieces_cases_open {inner : Bytes} (hlength : first.length = second.length)
    (hfirst : PlainPassword first) (hsecond : PlainPassword second) (hopen : byte '}' ∉ inner) :
    List.Forall₂ Piece.Alike
        (pieces 0 (passwordUrl (byte '$' :: byte '{' :: inner) first after))
        (pieces 0 (passwordUrl (byte '$' :: byte '{' :: inner) second after)) ∨
      ∃ closing tail,
        PasswordInName (byte '$' :: byte '{' :: inner) after [] inner closing tail ∧
          (passwordUrl inner first closing).length < nameCap := by
  by_cases hafter : byte '}' ∈ after
  · obtain ⟨closing, tail, rfl, hclosing⟩ := List.eq_append_cons_of_mem hafter
    by_cases hshort : (passwordUrl inner first closing).length < nameCap
    · exact .inr ⟨closing, tail, ⟨rfl, rfl, hopen, hclosing, List.not_mem_nil⟩, hshort⟩
    · left
      have hbad : ∀ password, PlainPassword password → password.length = first.length →
          pieces 0 (passwordUrl (byte '$' :: byte '{' :: inner) password
            (closing ++ byte '}' :: tail)) = [.malformed] := by
        intro password hplain hsame
        have hlong : nameCap ≤ (passwordUrl inner password closing).length := by
          rw [passwordUrl_length] at hshort ⊢
          omega
        have hurl : passwordUrl (byte '$' :: byte '{' :: inner) password
            (closing ++ byte '}' :: tail) = byte '$' :: byte '{' ::
              (passwordUrl inner password closing ++ byte '}' :: tail) := by
          simp [passwordUrl]
        rw [hurl, pieces_reference (not_mem_passwordUrl hopen hplain hclosing),
          if_pos (.inr hlong)]
      rw [hbad first hfirst rfl, hbad second hsecond hlength.symm]
      exact alike_refl _
  · left
    have hcons : ∀ password, passwordUrl (byte '$' :: byte '{' :: inner) password after =
        byte '$' :: byte '{' :: passwordUrl inner password after := fun _ => rfl
    rw [hcons, hcons, pieces_unclosed (not_mem_passwordUrl hopen hfirst hafter),
      pieces_unclosed (not_mem_passwordUrl hopen hsecond hafter)]
    exact alike_refl _

/-- The two texts have the same pieces but for the bytes of the password, or the password
is in a name. -/
theorem pieces_cases (hlength : first.length = second.length) (hfirst : PlainPassword first)
    (hsecond : PlainPassword second) (before after : Bytes) :
    List.Forall₂ Piece.Alike (pieces 0 (passwordUrl before first after))
        (pieces 0 (passwordUrl before second after)) ∨
      ∃ front opening closing tail, PasswordInName before after front opening closing tail ∧
        (passwordUrl opening first closing).length < nameCap := by
  induction hsize : before.length using Nat.strong_induction_on generalizing before with
  | _ size ih =>
    cases before with
    | nil => exact .inl (pieces_password_alike after hlength hfirst hsecond)
    | cons b rest =>
      rw [List.length_cons] at hsize
      by_cases hopens : opensReference b (rest ++ [byte ':']) = true
      · obtain ⟨rfl, text, htext⟩ := opensReference_cons hopens
        obtain ⟨inner, rfl⟩ : ∃ inner, rest = byte '{' :: inner := by
          cases rest with
          | nil => exact absurd (List.cons.inj htext).1 (by decide)
          | cons c inner => exact ⟨inner, by rw [(List.cons.inj htext).1]⟩
        by_cases hclosed : byte '}' ∈ inner
        · -- the reference ends in front of the password
          obtain ⟨name, rest, rfl, hname⟩ := List.eq_append_cons_of_mem hclosed
          have hpieces : ∀ password,
              pieces 0 (passwordUrl (byte '$' :: byte '{' :: (name ++ byte '}' :: rest)) password
                  after) =
                if name = [] ∨ nameCap ≤ name.length then [.malformed]
                else .reference name :: pieces 0 (passwordUrl rest password after) := by
            intro password
            rw [← pieces_reference hname]
            simp [passwordUrl]
          rw [hpieces, hpieces]
          split
          · exact .inl (alike_refl _)
          · rename_i hgood
            simp only [List.length_cons, List.length_append] at hsize
            rcases ih rest.length (by omega) rest rfl with
              halike | ⟨front, opening, closing, tail, hin, hshort⟩
            · exact .inl (.cons (.same _) halike)
            · exact .inr ⟨_, opening, closing, tail, hin.reference hname hgood, hshort⟩
        · rcases pieces_cases_open hlength hfirst hsecond hclosed with
            halike | ⟨closing, tail, hin, hshort⟩
          · exact .inl halike
          · exact .inr ⟨[], inner, closing, tail, hin, hshort⟩
      · rw [Bool.not_eq_true] at hopens
        have hcons : ∀ password, pieces 0 (passwordUrl (b :: rest) password after) =
            .literal b :: pieces 0 (passwordUrl rest password after) := fun password =>
          pieces_literal (opensReference_append hopens)
        rw [hcons, hcons]
        rcases ih rest.length (by omega) rest rfl with
          halike | ⟨front, opening, closing, tail, hin, hshort⟩
        · exact .inl (.cons (.same _) halike)
        · exact .inr ⟨_, opening, closing, tail, hin.literal hopens, hshort⟩

/-- A piece in front of the rest of a text has its fault, or takes its size. -/
theorem firstFault_append (environment : Environment) {capacity : Nat} (front rest : List Piece)
    (used : Nat) :
    firstFault environment capacity used (front ++ rest) =
      if firstFault environment capacity used front = none then
        firstFault environment capacity (used + (front.map (Piece.size environment)).sum) rest
      else firstFault environment capacity used front := by
  induction front generalizing used with
  | nil => simp [firstFault]
  | cons piece front ih =>
    rw [List.cons_append, List.map_cons, List.sum_cons, ← Nat.add_assoc]
    cases piece with
    | malformed => simp [firstFault]
    | literal b =>
      simp only [firstFault, Piece.size]
      split
      · simp
      · exact ih (used + 1)
    | reference name =>
      cases hvalue : environment name with
      | none => simp [firstFault, hvalue]
      | some value =>
        simp only [firstFault, hvalue, Piece.size, Option.map_some, Option.getD_some]
        split
        · simp
        · exact ih (used + value.length)

theorem fault_eq_unset {piece : Piece} {name : Bytes} :
    piece.fault = .unset name ↔ piece = .reference name := by
  cases piece <;> simp [Piece.fault]

/-- No missing piece overflows. -/
theorem map_fault_ne_overflow (piece : Option Piece) :
    piece.map Piece.fault ≠ some .overflow := by
  intro h
  obtain ⟨piece, -, hfault⟩ := Option.map_eq_some_iff.mp h
  cases piece <;> cases hfault

/-- The fault of a URL that has come to the reference with the password in its name. -/
def nameFault (environment : Environment) (front tail name : Bytes) : Option Fault :=
  match environment name with
  | none => some (.unset name)
  | some value =>
      if givenSize environment front + value.length + givenSize environment tail < gwUrlCap then
        (firstMissing environment tail).map Piece.fault
      else some .overflow

theorem holdsAlike_iff (environment : Environment) (front tail first second : Bytes) :
    HoldsAlike environment front tail first second ↔
      nameFault environment front tail first = nameFault environment front tail second := by
  have hmissing : ∀ name, (firstMissing environment tail).map Piece.fault = some (.unset name) ↔
      firstMissing environment tail = some (.reference name) := by
    intro name
    simp only [Option.map_eq_some_iff, fault_eq_unset, exists_eq_right]
  have hnone := map_fault_ne_overflow (firstMissing environment tail)
  unfold HoldsAlike nameFault ValueFits
  cases environment first with
  | none =>
    cases environment second with
    | none => simp
    | some other =>
      dsimp only
      rw [eq_comm (a := some (Fault.unset first))]
      split
      · rename_i hfits
        simp [hfits, hmissing]
      · rename_i hfull
        simp [hfull]
  | some value =>
    cases environment second with
    | none =>
      dsimp only
      split
      · rename_i hfits
        simp [hfits, hmissing]
      · rename_i hfull
        simp [hfull]
    | some other =>
      dsimp only
      split
      · rename_i hfits
        split
        · rename_i hother
          simp [hfits, hother]
        · rename_i hother
          simp [hfits, hother, hnone]
      · rename_i hfull
        split
        · rename_i hother
          simp [hfull, hother, hnone.symm]
        · rename_i hother
          simp [hfull, hother]

/-- The front of a text is expanded whole exactly when nothing of it is missing and it
fits. -/
theorem urlFault_eq_none_iff {environment : Environment} {text : Bytes} :
    urlFault environment text = none ↔
      firstMissing environment text = none ∧ givenSize environment text < gwUrlCap := by
  rw [urlFault_eq]
  split
  · rename_i hfull
    simp [hfull]
  · rename_i hfits
    rw [not_le] at hfits
    simp [hfits]

theorem PasswordInName.urlFault {front opening closing tail password : Bytes}
    (h : PasswordInName before after front opening closing tail) (hplain : PlainPassword password)
    (hshort : (passwordUrl opening password closing).length < nameCap)
    (environment : Environment) :
    Gateway.urlFault environment (passwordUrl before password after) =
      if Gateway.urlFault environment front = none then
        nameFault environment front tail (passwordUrl opening password closing)
      else Gateway.urlFault environment front := by
  have hurl : Gateway.urlFault environment (passwordUrl before password after) =
      firstFault environment gwUrlCap 0 (Gateway.pieces 0 front ++
        .reference (passwordUrl opening password closing) :: Gateway.pieces 0 tail) :=
    congrArg _ (h.pieces hplain hshort)
  have hfront : firstFault environment gwUrlCap 0 (Gateway.pieces 0 front) =
      Gateway.urlFault environment front := rfl
  rw [hurl, firstFault_append, hfront, Nat.zero_add]
  split
  · rename_i hnone
    obtain ⟨hmissing, hfits⟩ := urlFault_eq_none_iff.mp hnone
    have hall : ∀ piece ∈ Gateway.pieces 0 front, piece.given environment = true := by
      intro piece hpiece
      simpa using List.find?_eq_none.mp hmissing piece hpiece
    have hsize : ((Gateway.pieces 0 front).map (Piece.size environment)).sum =
        givenSize environment front := by
      rw [givenSize, List.takeWhile_eq_self_iff.mpr hall]
    rw [hsize, firstFault, nameFault]
    cases environment (passwordUrl opening password closing) with
    | none => rfl
    | some value =>
      dsimp only
      by_cases hvalue : gwUrlCap ≤ givenSize environment front + value.length
      · rw [if_pos hvalue, if_neg (by omega)]
      · rw [if_neg hvalue, firstFault_eq _ (not_le.mp hvalue)]
        by_cases htail : gwUrlCap ≤
            givenSize environment front + value.length + givenSize environment tail
        · rw [if_neg (not_lt.mpr htail)]
          exact if_pos htail
        · rw [if_pos (not_le.mp htail)]
          exact if_neg htail
  · rfl

/-- Two URLs that differ in the password have the same fault exactly when the environment
makes no difference between the two names, if the password is in a name at all that the
expansion comes to. -/
theorem urlFault_eq_iff (environment : Environment) (hlength : first.length = second.length)
    (hfirst : PlainPassword first) (hsecond : PlainPassword second) :
    urlFault environment (passwordUrl before first after) =
        urlFault environment (passwordUrl before second after) ↔
      ∀ front opening closing tail, PasswordInName before after front opening closing tail →
        (passwordUrl opening first closing).length < nameCap →
        firstMissing environment front = none → givenSize environment front < gwUrlCap →
        HoldsAlike environment front tail (passwordUrl opening first closing)
          (passwordUrl opening second closing) := by
  have hsame : ∀ {front opening closing tail},
      PasswordInName before after front opening closing tail →
      (passwordUrl opening first closing).length < nameCap →
      (urlFault environment (passwordUrl before first after) =
          urlFault environment (passwordUrl before second after) ↔
        (urlFault environment front = none →
          HoldsAlike environment front tail (passwordUrl opening first closing)
            (passwordUrl opening second closing))) := by
    intro front opening closing tail hin hshort
    have hshort' : (passwordUrl opening second closing).length < nameCap := by
      rw [passwordUrl_length] at hshort ⊢
      omega
    rw [hin.urlFault hfirst hshort, hin.urlFault hsecond hshort', holdsAlike_iff]
    by_cases hnone : urlFault environment front = none
    · rw [if_pos hnone, if_pos hnone]
      exact ⟨fun h _ => h, fun h => h hnone⟩
    · rw [if_neg hnone, if_neg hnone]
      exact ⟨fun _ h => absurd h hnone, fun _ => rfl⟩
  constructor
  · intro heq front opening closing tail hin hshort hmissing hfits
    exact (hsame hin hshort).mp heq (urlFault_eq_none_iff.mpr ⟨hmissing, hfits⟩)
  · intro halike
    rcases pieces_cases hlength hfirst hsecond before after with
      hpieces | ⟨front, opening, closing, tail, hin, hshort⟩
    · exact firstFault_alike hpieces environment gwUrlCap 0
    · refine (hsame hin hshort).mpr fun hnone => ?_
      obtain ⟨hmissing, hfits⟩ := urlFault_eq_none_iff.mp hnone
      exact halike front opening closing tail hin hshort hmissing hfits

theorem urlFault_eq_malformed_iff {environment : Environment} {url : Bytes} :
    urlFault environment url = some .malformed ↔
      firstMissing environment url = some .malformed ∧ givenSize environment url < gwUrlCap := by
  rw [urlFault_eq]
  split
  · rename_i hfull
    simp [hfull]
  · rename_i hfits
    rw [not_le] at hfits
    simp only [hfits, and_true, Option.map_eq_some_iff]
    constructor
    · rintro ⟨piece, hpiece, hfault⟩
      cases piece with
      | malformed => exact hpiece
      | reference name => cases hfault
      | literal b =>
        have hgiven := List.find?_some hpiece
        simp [Piece.given] at hgiven
    · intro h
      exact ⟨.malformed, h, rfl⟩

end Passwords

/-! ## What the messages show -/

/-- How much of the input the message about a malformed reference shows. -/
def visibleInput : Nat := 221

/-- The message shows the input's first `visibleInput` bytes. -/
theorem malformedError_eq_iff {before first second after : Bytes}
    (hlength : first.length = second.length) :
    malformedError (passwordUrl before first after) =
        malformedError (passwordUrl before second after) ↔
      first.take (visibleInput - (before.length + 1)) =
        second.take (visibleInput - (before.length + 1)) := by
  have hshow : ∀ password, (malformedError (passwordUrl before password after)).message =
      ascii "invalid environment reference in '" ++
        (before.take visibleInput ++ [byte ':'].take (visibleInput - before.length) ++
          password.take (visibleInput - (before.length + 1)) ++
          ((byte '@' :: after) ++ ascii "'").take
            (visibleInput - (before.length + 1 + password.length))) := by
    intro password
    have htext : ascii "invalid environment reference in '" ++ passwordUrl before password after ++
        ascii "'" = ascii "invalid environment reference in '" ++
          (before ++ [byte ':'] ++ password ++ ((byte '@' :: after) ++ ascii "'")) := by
      simp [passwordUrl]
    have hcap : gwErrorCap - 1 = (ascii "invalid environment reference in '").length + visibleInput :=
      rfl
    rw [malformedError, gwErrorSet, htext, truncated, hcap, List.take_length_add_append,
      List.take_append, List.take_append, List.take_append]
    simp only [List.length_append, List.length_singleton]
  constructor
  · intro h
    have hmessage := congrArg GwError.message h
    rw [hshow, hshow, List.append_cancel_left_eq, hlength, List.append_cancel_right_eq,
      List.append_cancel_left_eq] at hmessage
    exact hmessage
  · intro h
    have hmessage : (malformedError (passwordUrl before first after)).message =
        (malformedError (passwordUrl before second after)).message := by
      rw [hshow, hshow, h, hlength]
    unfold malformedError gwErrorSet at hmessage ⊢
    rw [GwError.mk.injEq]
    exact ⟨rfl, hmessage⟩

theorem pieces_reference_length {name : Bytes} :
    ∀ {text : Bytes} {skip : Nat}, .reference name ∈ pieces skip text → name.length < nameCap := by
  intro text
  induction text with
  | nil =>
    intro skip h
    cases skip <;> simp [pieces] at h
  | cons b rest ih =>
    intro skip h
    cases skip with
    | succ skip => exact ih h
    | zero =>
      rw [pieces] at h
      split at h
      · split at h
        · simp at h
        · rename_i hbad
          rcases List.mem_cons.mp h with heq | hmem
          · have hname : name = referenceName rest := Piece.reference.inj heq
            simp only [badReference, Bool.or_eq_true, decide_eq_true_eq, not_or] at hbad
            rw [hname]
            omega
          · exact ih hmem
      · rcases List.mem_cons.mp h with heq | hmem
        · simp at heq
        · exact ih hmem

/-- The message about an unset variable names it in full. -/
theorem unsetError_message {name : Bytes} (h : name.length < nameCap) :
    (unsetError name).message =
      ascii "required environment variable '" ++ name ++ ascii "' is not set" := by
  have hfront : (ascii "required environment variable '").length = 31 := rfl
  have hback : (ascii "' is not set").length = 12 := rfl
  unfold nameCap at h
  refine List.take_of_length_le ?_
  rw [List.length_append, List.length_append, hfront, hback]
  unfold gwErrorCap
  omega

/-- Two faults reported alike are the same fault. -/
theorem faultError_injective {first second : Bytes} {outputSize : Nat} {fault other : Fault}
    (hfault : ∀ name, fault = .unset name → name.length < nameCap)
    (hother : ∀ name, other = .unset name → name.length < nameCap)
    (h : faultError first outputSize fault = faultError second outputSize other) :
    fault = other := by
  have hcode := congrArg GwError.code h
  have hmessage := congrArg GwError.message h
  have hhead := congrArg List.head? hmessage
  cases fault with
  | malformed =>
    cases other with
    | malformed => rfl
    | unset name =>
      have hletter : some (byte 'i') = some (byte 'r') := hhead
      exact absurd hletter (by decide)
    | overflow => cases hcode
  | unset name =>
    cases other with
    | malformed =>
      have hletter : some (byte 'r') = some (byte 'i') := hhead
      exact absurd hletter (by decide)
    | unset name' =>
      rw [faultError, faultError, unsetError_message (hfault name rfl),
        unsetError_message (hother name' rfl), List.append_cancel_right_eq,
        List.append_cancel_left_eq] at hmessage
      rw [hmessage]
    | overflow => cases hcode
  | overflow =>
    cases other with
    | malformed => cases hcode
    | unset name => cases hcode
    | overflow => rfl

theorem urlFault_unset_length {environment : Environment} {url name : Bytes}
    (h : urlFault environment url = some (.unset name)) : name.length < nameCap := by
  rw [urlFault_eq] at h
  split at h
  · cases h
  · obtain ⟨piece, hpiece, hfault⟩ := Option.map_eq_some_iff.mp h
    rw [fault_eq_unset.mp hfault] at hpiece
    exact pieces_reference_length (List.mem_of_find?_eq_some hpiece)

/-- Two URLs that differ in the password fail alike exactly when the environment makes no
difference between the two names that have the passwords in them, where there are such
names and everything in front of them is given and fits; and the message about a malformed
reference, where that is the first thing missing and everything in front of it fits, shows
the same bytes. -/
theorem expandInputUrl_same_diagnostic_iff (environment : Environment)
    {before first second after : Bytes} (hlength : first.length = second.length)
    (hfirst : PlainPassword first) (hsecond : PlainPassword second) :
    (∀ error, (expandInputUrl environment (passwordUrl before first after)).2 = .error error ↔
        (expandInputUrl environment (passwordUrl before second after)).2 = .error error) ↔
      (∀ front opening closing tail, PasswordInName before after front opening closing tail →
        (passwordUrl opening first closing).length < nameCap →
        firstMissing environment front = none → givenSize environment front < gwUrlCap →
        HoldsAlike environment front tail (passwordUrl opening first closing)
          (passwordUrl opening second closing)) ∧
      (firstMissing environment (passwordUrl before first after) = some .malformed →
        givenSize environment (passwordUrl before first after) < gwUrlCap →
        first.take (visibleInput - (before.length + 1)) =
          second.take (visibleInput - (before.length + 1))) := by
  rw [← urlFault_eq_iff environment hlength hfirst hsecond, ← and_imp, ← urlFault_eq_malformed_iff]
  simp only [expandInputUrl_error_iff]
  constructor
  · intro h
    have hsame : urlFault environment (passwordUrl before first after) =
        urlFault environment (passwordUrl before second after) := by
      cases hone : urlFault environment (passwordUrl before first after) with
      | none =>
        cases htwo : urlFault environment (passwordUrl before second after) with
        | none => rfl
        | some other =>
          obtain ⟨fault, hfault, -⟩ := (h _).mpr ⟨other, htwo, rfl⟩
          rw [hone] at hfault
          cases hfault
      | some fault =>
        obtain ⟨other, hother, herror⟩ := (h _).mp ⟨fault, hone, rfl⟩
        have heq : other = fault := faultError_injective
          (fun name hname => urlFault_unset_length (hname ▸ hother))
          (fun name hname => urlFault_unset_length (hname ▸ hone)) herror
        rw [hother, heq]
    refine ⟨hsame, ?_⟩
    intro hmalformed
    obtain ⟨other, hother, herror⟩ := (h _).mp ⟨.malformed, hmalformed, rfl⟩
    rw [← hsame, hmalformed, Option.some.injEq] at hother
    rw [← hother] at herror
    exact ((malformedError_eq_iff hlength).mp herror.symm)
  · rintro ⟨hsame, hvisible⟩
    intro error
    rw [← hsame]
    refine exists_congr fun fault => and_congr_right fun hfault => ?_
    have herror : faultError (passwordUrl before first after) gwUrlCap fault =
        faultError (passwordUrl before second after) gwUrlCap fault := by
      cases fault with
      | malformed => exact (malformedError_eq_iff hlength).mpr (hvisible hfault)
      | unset name => rfl
      | overflow => rfl
    rw [herror]

/-- The user name has no dollar sign, so the password is in no name. -/
theorem expandInputUrl_same_diagnostic_host :
    urlFault emptyEnvironment
        (passwordUrl (ascii "rtsp://cam") (ascii "secret") (ascii "$\x7bHOST\x7d/live")) =
          some (.unset (ascii "HOST")) ∧
      ∀ error, (expandInputUrl emptyEnvironment
          (passwordUrl (ascii "rtsp://cam") (ascii "secret") (ascii "$\x7bHOST\x7d/live"))).2 =
            .error error ↔
        (expandInputUrl emptyEnvironment
          (passwordUrl (ascii "rtsp://cam") (ascii "hidden") (ascii "$\x7bHOST\x7d/live"))).2 =
            .error error :=
  ⟨by
      rw [ascii_ofList, ascii_ofList, ascii_ofList, ascii_ofList]
      decide +kernel,
    (@expandInputUrl_same_diagnostic_iff emptyEnvironment (ascii "rtsp://cam") (ascii "secret")
      (ascii "hidden") (ascii "$\x7bHOST\x7d/live") (by rw [ascii_ofList, ascii_ofList]; rfl)
      (by unfold PlainPassword; decide +kernel) (by unfold PlainPassword; decide +kernel)).mpr
    ⟨fun _ _ _ _ hin => absurd hin.dollar_mem (by rw [ascii_ofList]; decide +kernel), fun h =>
      absurd h (by
        rw [ascii_ofList, ascii_ofList, ascii_ofList]
        decide +kernel)⟩⟩

/-- An unterminated reference in the user name puts the password in the message. -/
theorem expandInputUrl_shows_password :
    ¬ ∀ error, (expandInputUrl emptyEnvironment
          (passwordUrl (ascii "rtsp://$\x7bUSER") (ascii "secret") (ascii "host/live"))).2 =
            .error error ↔
        (expandInputUrl emptyEnvironment
          (passwordUrl (ascii "rtsp://$\x7bUSER") (ascii "hidden") (ascii "host/live"))).2 =
            .error error := by
  intro h
  have hsecret := expandInputUrl_error_iff.mpr ⟨.malformed,
    show urlFault emptyEnvironment
      (passwordUrl (ascii "rtsp://$\x7bUSER") (ascii "secret") (ascii "host/live")) = _ by
        rw [ascii_ofList, ascii_ofList, ascii_ofList]
        decide +kernel, rfl⟩
  have hhidden := expandInputUrl_error_iff.mpr ⟨.malformed,
    show urlFault emptyEnvironment
      (passwordUrl (ascii "rtsp://$\x7bUSER") (ascii "hidden") (ascii "host/live")) = _ by
        rw [ascii_ofList, ascii_ofList, ascii_ofList]
        decide +kernel, rfl⟩
  have hsame := Except.error.inj (((h _).mp hsecret).symm.trans hhidden)
  have hlength : (ascii "secret").length = (ascii "hidden").length := by
    rw [ascii_ofList, ascii_ofList]
    rfl
  have hvisible := (malformedError_eq_iff hlength).mp hsame
  rw [ascii_ofList, ascii_ofList, ascii_ofList] at hvisible
  exact absurd hvisible (by decide +kernel)

end LearnApue.Gateway
