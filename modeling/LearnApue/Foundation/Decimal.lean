import LearnApue.Foundation.CString

set_option autoImplicit false

/-!
# Decimal numerals

What `printf` writes for an integer: how long it is, which bytes it is made of, and
that reading it back gives the integer; which texts `strtoull` reads as a whole: those of
digits after white space and at most one sign (`strtoull_eq_whole`); and that `strtoll` and
`strtoull` read a printed integer back from the front of a text.
-/

namespace LearnApue.Foundation

/-- The digits of a number, the last one first, as bytes in reading order. -/
def digitBytes (digits : List Nat) : Bytes := digits.reverse.map fun d => UInt8.ofNat (48 + d)

theorem decimalNat_of_pos {n : Nat} (h : n ≠ 0) : decimalNat n = digitBytes (Nat.digits 10 n) :=
  if_neg h

theorem digitsValue_append (start : Nat) (front back : Bytes) :
    digitsValue start (front ++ back) = digitsValue (digitsValue start front) back :=
  List.foldl_append

theorem toNat_digitByte {d : Nat} (h : d < 10) : (UInt8.ofNat (48 + d)).toNat = 48 + d := by
  rw [UInt8.toNat_ofNat']
  omega

theorem digitsValue_digitBytes {digits : List Nat} (h : ∀ d ∈ digits, d < 10) :
    digitsValue 0 (digitBytes digits) = Nat.ofDigits 10 digits := by
  induction digits with
  | nil => rfl
  | cons digit rest ih =>
    have hdigit := toNat_digitByte (h digit List.mem_cons_self)
    have hrest := ih fun d hd => h d (List.mem_cons_of_mem _ hd)
    unfold digitBytes at hrest ⊢
    rw [List.reverse_cons, List.map_append, digitsValue_append, hrest, Nat.ofDigits_cons]
    simp only [List.map_cons, List.map_nil, digitsValue, List.foldl_cons, List.foldl_nil, hdigit]
    omega

/-- A numeral has the value it was written for. -/
theorem digitsValue_decimalNat (n : Nat) : digitsValue 0 (decimalNat n) = n := by
  by_cases h : n = 0
  · rw [h]
    rfl
  · rw [decimalNat_of_pos h, digitsValue_digitBytes fun d hd => Nat.digits_lt_base (by decide) hd,
      Nat.ofDigits_digits]

theorem isDigit_of_mem_decimalNat {n : Nat} {b : Byte} (h : b ∈ decimalNat n) :
    isDigit b = true := by
  by_cases hzero : n = 0
  · rw [decimalNat, if_pos hzero, List.mem_singleton] at h
    rw [h]
    rfl
  · rw [decimalNat_of_pos hzero, digitBytes, List.mem_map] at h
    obtain ⟨d, hd, rfl⟩ := h
    have hlt : d < 10 := Nat.digits_lt_base (by decide) (List.mem_reverse.mp hd)
    have hbyte := toNat_digitByte hlt
    simp only [isDigit, Bool.and_eq_true, decide_eq_true_eq, UInt8.le_iff_toNat_le, hbyte]
    have hupper : 48 + d ≤ 57 := by omega
    exact ⟨Nat.le_add_right 48 d, hupper⟩

theorem decimalNat_ne_nil (n : Nat) : decimalNat n ≠ [] := by
  by_cases h : n = 0
  · rw [decimalNat, if_pos h]
    exact List.cons_ne_nil _ _
  · rw [decimalNat_of_pos h, digitBytes]
    simpa using Nat.digits_ne_nil_iff_ne_zero.mpr h

/-- Only zero starts with the digit zero. -/
theorem head_decimalNat {n : Nat} (h : n ≠ 0) : (decimalNat n).head? ≠ some 48 := by
  have hne : Nat.digits 10 n ≠ [] := Nat.digits_ne_nil_iff_ne_zero.mpr h
  have hlast : (Nat.digits 10 n).getLast hne ≠ 0 := Nat.getLast_digit_ne_zero 10 h
  have hlt : (Nat.digits 10 n).getLast hne < 10 :=
    Nat.digits_lt_base (by decide) (List.getLast_mem hne)
  rw [decimalNat_of_pos h, digitBytes, List.head?_map, List.head?_reverse,
    List.getLast?_eq_getLast_of_ne_nil hne, Option.map_some, ne_eq, Option.some.injEq]
  intro heq
  have hbyte := toNat_digitByte hlt
  rw [heq] at hbyte
  exact hlast (by simpa using hbyte)

/-- A number below a power of ten has at most so many digits. -/
theorem decimalNat_length_le {n k : Nat} (hk : 0 < k) (h : n < 10 ^ k) :
    (decimalNat n).length ≤ k := by
  by_cases hzero : n = 0
  · rw [decimalNat, if_pos hzero]
    exact hk
  · rw [decimalNat_of_pos hzero, digitBytes, List.length_map, List.length_reverse]
    exact (Nat.digits_length_le_iff (by decide) n).mpr h

theorem decimalInt_of_nonneg {i : Int} (h : 0 ≤ i) : decimalInt i = decimalNat i.toNat := by
  rw [decimalInt, if_neg (by omega)]
  congr 1
  omega

theorem decimalInt_length_le {i : Int} {k : Nat} (hk : 0 < k) (h : i.natAbs < 10 ^ k) :
    (decimalInt i).length ≤ k + 1 := by
  have hdigits := decimalNat_length_le hk h
  unfold decimalInt
  split
  · rw [List.length_cons]
    omega
  · omega

theorem decimalInt_length_le_of_nonneg {i : Int} {k : Nat} (hk : 0 < k) (hi : 0 ≤ i)
    (h : i < 10 ^ k) : (decimalInt i).length ≤ k := by
  rw [decimalInt_of_nonneg hi]
  refine decimalNat_length_le hk ?_
  zify
  omega

/-! ## What `strtoull` reads as a whole -/

/-- A decimal numeral without sign. -/
def IsNumeral (text : Bytes) : Prop := text ≠ [] ∧ ∀ b ∈ text, isDigit b = true

instance (text : Bytes) : Decidable (IsNumeral text) :=
  inferInstanceAs (Decidable (_ ∧ _))

/-- What may stand before the digits: white space and at most one sign. -/
def IsLead (lead : Bytes) : Prop :=
  ∃ blanks sign, lead = blanks ++ sign ∧ (∀ b ∈ blanks, isSpace b = true) ∧
    (sign = [] ∨ sign = [byte '-'] ∨ sign = [byte '+'])

/-- The number that digits of value `n` stand for after a lead: a minus sign negates modulo
`2^64`. -/
def ledValue (lead : Bytes) (n : Nat) : Nat :=
  if byte '-' ∈ lead then (2 ^ 64 - n) % 2 ^ 64 else n

theorem isLead_nil : IsLead [] := ⟨[], [], rfl, List.forall_mem_nil _, .inl rfl⟩

theorem ledValue_nil (n : Nat) : ledValue [] n = n := if_neg List.not_mem_nil

theorem isDigit_eq_false_of_isSpace {b : Byte} (h : isSpace b = true) : isDigit b = false := by
  simp only [isSpace, Bool.or_eq_true, beq_iff_eq, Bool.and_eq_true, decide_eq_true_eq,
    UInt8.le_iff_toNat_le] at h
  rcases h with rfl | ⟨-, hupper⟩
  · rfl
  · have hlow : b.toNat < 48 := lt_of_le_of_lt hupper (by decide)
    refine Bool.and_eq_false_iff.mpr (.inl (decide_eq_false ?_))
    rw [UInt8.le_iff_toNat_le]
    exact Nat.not_le.mpr hlow

theorem isSpace_eq_false_of_isDigit {b : Byte} (h : isDigit b = true) : isSpace b = false := by
  cases hspace : isSpace b with
  | false => rfl
  | true => exact absurd h (by rw [isDigit_eq_false_of_isSpace hspace]; exact Bool.false_ne_true)

theorem IsNumeral.nul_notMem {text : Bytes} (h : IsNumeral text) : nul ∉ text := fun hmem =>
  absurd (h.2 nul hmem) (by decide)

/-- Digits are no lead. -/
theorem IsLead.eq_nil {lead : Bytes} (h : IsLead lead) (hdigits : ∀ b ∈ lead, isDigit b = true) :
    lead = [] := by
  obtain ⟨blanks, sign, rfl, hblanks, hsign⟩ := h
  have hempty : blanks = [] := by
    refine List.eq_nil_iff_forall_not_mem.mpr fun b hb => ?_
    have hdigit := hdigits b (List.mem_append_left sign hb)
    rw [isDigit_eq_false_of_isSpace (hblanks b hb)] at hdigit
    exact Bool.false_ne_true hdigit
  rcases hsign with rfl | rfl | rfl
  · rw [hempty, List.nil_append]
  · exact absurd (hdigits _ (List.mem_append_right blanks List.mem_cons_self)) (by decide)
  · exact absurd (hdigits _ (List.mem_append_right blanks List.mem_cons_self)) (by decide)

theorem readSign_digits {digits : Bytes} (h : ∀ b ∈ digits, isDigit b = true) :
    readSign digits = (false, digits) := by
  cases digits with
  | nil => rfl
  | cons b rest =>
    have hb := h b List.mem_cons_self
    have hminus : b ≠ byte '-' := fun heq => absurd hb (by rw [heq]; decide)
    have hplus : b ≠ byte '+' := fun heq => absurd hb (by rw [heq]; decide)
    rw [readSign, if_neg hminus, if_neg hplus]

/-- A lead before digits is skipped. -/
theorem readNumeral_lead {lead digits : Bytes} (hlead : IsLead lead) (hdigits : IsNumeral digits) :
    readNumeral (lead ++ digits) = (decide (byte '-' ∈ lead), digits, []) := by
  obtain ⟨blanks, sign, rfl, hblanks, hsign⟩ := hlead
  have hsome : ∃ first rest, digits = first :: rest := List.exists_cons_of_ne_nil hdigits.1
  obtain ⟨first, rest, hfirst⟩ := hsome
  have hnoSpace : isSpace first = false :=
    isSpace_eq_false_of_isDigit (hdigits.2 first (by rw [hfirst]; exact List.mem_cons_self))
  have hnoMinus : byte '-' ∉ blanks := fun hmem => absurd (hblanks _ hmem) (by decide)
  have htake : digits.takeWhile isDigit = digits := List.takeWhile_eq_self_iff.mpr hdigits.2
  have hdrop : digits.dropWhile isDigit = [] := List.dropWhile_eq_nil_iff.mpr hdigits.2
  have hskip : (blanks ++ sign ++ digits).dropWhile isSpace = sign ++ digits := by
    rw [List.append_assoc, List.dropWhile_append, List.dropWhile_eq_nil_iff.mpr hblanks]
    rcases hsign with rfl | rfl | rfl
    · simp [hfirst, hnoSpace]
    · rfl
    · rfl
  unfold readNumeral
  rw [hskip]
  rcases hsign with rfl | rfl | rfl
  · simp [readSign_digits hdigits.2, htake, hdrop, hnoMinus]
  · simp [readSign, htake, hdrop]
  · have hdiffer : ¬ byte '-' = byte '+' := by decide
    simp [readSign, htake, hdrop, hnoMinus, hdiffer, Ne.symm hdiffer]

theorem readSign_split (text : Bytes) :
    ∃ sign, text = sign ++ (readSign text).2 ∧
      (sign = [] ∨ sign = [byte '-'] ∨ sign = [byte '+']) := by
  cases text with
  | nil => exact ⟨[], rfl, .inl rfl⟩
  | cons b rest =>
    rw [readSign]
    split
    · rename_i hminus
      exact ⟨[byte '-'], by rw [hminus]; rfl, .inr (.inl rfl)⟩
    · split
      · rename_i hplus
        exact ⟨[byte '+'], by rw [hplus]; rfl, .inr (.inr rfl)⟩
      · exact ⟨[], rfl, .inl rfl⟩

/-- What is read up to the end of a text is a lead and digits. -/
theorem readNumeral_split {text digits : Bytes} {negative : Bool}
    (h : readNumeral text = (negative, digits, [])) :
    ∃ lead, IsLead lead ∧ text = lead ++ digits ∧ ∀ b ∈ digits, isDigit b = true := by
  have hblanks := @List.takeWhile_append_dropWhile Byte isSpace text
  have hspaces : ∀ b ∈ text.takeWhile isSpace, isSpace b = true := fun b hb =>
    List.mem_takeWhile_imp hb
  obtain ⟨sign, hafter, hkind⟩ := readSign_split (text.dropWhile isSpace)
  simp only [readNumeral, Prod.mk.injEq] at h
  obtain ⟨-, htake, hdrop⟩ := h
  have hall : (readSign (text.dropWhile isSpace)).2 = digits := by
    have hsplit := @List.takeWhile_append_dropWhile Byte isDigit
      (readSign (text.dropWhile isSpace)).2
    rw [htake, hdrop, List.append_nil] at hsplit
    exact hsplit.symm
  refine ⟨text.takeWhile isSpace ++ sign, ⟨_, sign, rfl, hspaces, hkind⟩, ?_, ?_⟩
  · rw [List.append_assoc, ← hall, ← hafter, hblanks]
  · intro b hb
    rw [← htake] at hb
    exact List.mem_takeWhile_imp hb

/-- `strtoull` reads a text as a whole, without an error, exactly when it is a lead and digits
below `2^64`. -/
theorem strtoull_eq_whole {text : Bytes} {value : Int} :
    strtoull text = ⟨value, [], true, false⟩ ↔
      ∃ lead digits, text = lead ++ digits ∧ IsLead lead ∧ IsNumeral digits ∧
        digitsValue 0 digits < 2 ^ 64 ∧ value = ledValue lead (digitsValue 0 digits) := by
  constructor
  · intro h
    obtain ⟨negative, digits, rest, hread⟩ : ∃ negative digits rest,
        readNumeral text = (negative, digits, rest) := ⟨_, _, _, rfl⟩
    simp only [strtoull, hread] at h
    split at h
    · simp at h
    · split at h
      · rename_i hne hlt
        obtain ⟨hvalue, hrest, -⟩ := StrtoResult.mk.inj h
        rw [hrest] at hread
        obtain ⟨lead, hlead, htext, hdigits⟩ := readNumeral_split hread
        have hagain := readNumeral_lead hlead ⟨hne, hdigits⟩
        rw [← htext, hread, Prod.mk.injEq] at hagain
        refine ⟨lead, digits, htext, hlead, ⟨hne, hdigits⟩, hlt, ?_⟩
        rw [← hvalue, hagain.1]
        unfold ledValue
        split <;> simp_all
      · simp at h
  · rintro ⟨lead, digits, rfl, hlead, hdigits, hlt, rfl⟩
    simp only [strtoull, readNumeral_lead hlead hdigits, if_neg hdigits.1, if_pos hlt, ledValue,
      decide_eq_true_eq]
    split <;> rfl

/-! ## Reading a printed integer back -/

/-- A text that does not go on with a digit. -/
def EndsNumeral (rest : Bytes) : Prop := ∀ b ∈ rest.head?, isDigit b = false

theorem endsNumeral_nil : EndsNumeral [] := fun _ hb => nomatch hb

theorem endsNumeral_cons {b : Byte} (hb : isDigit b = false) (rest : Bytes) :
    EndsNumeral (b :: rest) := by
  intro c hc
  cases hc
  exact hb

theorem isNumeral_decimalNat (n : Nat) : IsNumeral (decimalNat n) :=
  ⟨decimalNat_ne_nil n, fun _ hb => isDigit_of_mem_decimalNat hb⟩

/-- The digits of a numeral end where the numeral does. -/
theorem takeWhile_isDigit_append {digits rest : Bytes} (hdigits : ∀ b ∈ digits, isDigit b = true)
    (hrest : EndsNumeral rest) :
    (digits ++ rest).takeWhile isDigit = digits ∧ (digits ++ rest).dropWhile isDigit = rest := by
  have hstop : rest.takeWhile isDigit = [] ∧ rest.dropWhile isDigit = rest := by
    cases rest with
    | nil => exact ⟨rfl, rfl⟩
    | cons b rest =>
      have hb : ¬ isDigit b = true := by
        rw [hrest b rfl]
        exact Bool.false_ne_true
      exact ⟨List.takeWhile_cons_of_neg hb, List.dropWhile_cons_of_neg hb⟩
  constructor
  · rw [List.takeWhile_append_of_pos hdigits, hstop.1, List.append_nil]
  · rw [List.dropWhile_append_of_pos hdigits, hstop.2]

theorem readNumeral_decimalInt {rest : Bytes} (hrest : EndsNumeral rest) (v : Int) :
    readNumeral (decimalInt v ++ rest) = (decide (v < 0), decimalNat v.natAbs, rest) := by
  obtain ⟨hnonempty, hdigits⟩ := isNumeral_decimalNat v.natAbs
  obtain ⟨htake, hdrop⟩ := takeWhile_isDigit_append hdigits hrest
  obtain ⟨first, more, hfirst⟩ := List.exists_cons_of_ne_nil hnonempty
  have hdigit : isDigit first = true := hdigits first (by rw [hfirst]; exact List.mem_cons_self)
  have hsigned : readSign ((decimalInt v ++ rest).dropWhile isSpace) =
      (decide (v < 0), decimalNat v.natAbs ++ rest) := by
    unfold decimalInt
    split
    · rename_i hneg
      rw [List.cons_append, List.dropWhile_cons_of_neg (by decide), readSign, if_pos rfl,
        decide_eq_true hneg]
    · rename_i hneg
      have hminus : first ≠ byte '-' := fun heq => absurd hdigit (by rw [heq]; decide)
      have hplus : first ≠ byte '+' := fun heq => absurd hdigit (by rw [heq]; decide)
      have hspace : ¬ isSpace first = true := by
        rw [isSpace_eq_false_of_isDigit hdigit]
        exact Bool.false_ne_true
      rw [hfirst, List.cons_append, List.dropWhile_cons_of_neg hspace, readSign, if_neg hminus,
        if_neg hplus, decide_eq_false hneg]
  unfold readNumeral
  rw [hsigned]
  simp only [htake, hdrop]

/-- `strtoll` inverts `%lld`. -/
theorem strtoll_decimalInt {v : Int} {rest : Bytes} (hlow : -2 ^ 63 ≤ v) (hhigh : v < 2 ^ 63)
    (hrest : EndsNumeral rest) : strtoll (decimalInt v ++ rest) = ⟨v, rest, true, false⟩ := by
  simp only [strtoll, readNumeral_decimalInt hrest, if_neg (decimalNat_ne_nil _),
    digitsValue_decimalNat, decide_eq_true_eq]
  split
  · rename_i hneg
    rw [if_pos (by omega)]
    congr 1
    omega
  · rw [if_pos (by omega)]
    congr 1
    omega

/-- `strtoull` inverts `%llu`. -/
theorem strtoull_decimalInt {n : Nat} {rest : Bytes} (h : n < 2 ^ 64) (hrest : EndsNumeral rest) :
    strtoull (decimalInt n ++ rest) = ⟨n, rest, true, false⟩ := by
  have hnonneg : ¬ ((n : Int) < 0) := by omega
  simp only [strtoull, readNumeral_decimalInt hrest, if_neg (decimalNat_ne_nil _),
    digitsValue_decimalNat, Int.natAbs_natCast, if_pos h, hnonneg, decide_false,
    Bool.false_eq_true, if_false]

/-- A printed integer is read to its end, whatever its size. -/
theorem strtoll_decimalInt_rest {rest : Bytes} (hrest : EndsNumeral rest) (v : Int) :
    (strtoll (decimalInt v ++ rest)).rest = rest := by
  simp only [strtoll, readNumeral_decimalInt hrest, if_neg (decimalNat_ne_nil _)]
  split
  · split <;> rfl
  · split <;> rfl

theorem strtoull_decimalInt_rest {rest : Bytes} (hrest : EndsNumeral rest) (v : Int) :
    (strtoull (decimalInt v ++ rest)).rest = rest := by
  simp only [strtoull, readNumeral_decimalInt hrest, if_neg (decimalNat_ne_nil _)]
  split <;> rfl

end LearnApue.Foundation
