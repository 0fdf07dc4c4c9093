import LearnApue.Foundation.Decimal

set_option autoImplicit false

/-!
# Reading JSON

A reader of JSON texts in ASCII.  A string is the list of its code units, a number is
the rational it denotes.  The reader is total: its first argument bounds the number of
nested and listed values, and the length of the text is always enough.

`Reads` says that a text is read as a value whatever follows it, which is what makes the
rules for strings, numbers and objects compose.
-/

namespace LearnApue.Foundation

/-- A JSON value. -/
inductive Json where
  | null
  | bool (value : Bool)
  | number (value : ℚ)
  | string (codes : List Nat)
  | array (elements : List Json)
  | object (members : List (List Nat × Json))

namespace Json

/-- `"`. -/
def quote : Byte := 34
/-- `\`. -/
def backslash : Byte := 92
/-- `,`. -/
def comma : Byte := 44
/-- `:`. -/
def colon : Byte := 58

/-- White space. -/
def blank (b : Byte) : Bool := b == 32 || b == 9 || b == 10 || b == 13

/-- The text after white space. -/
def skip (text : Bytes) : Bytes := text.dropWhile blank

/-- The text after a byte. -/
def expect (b : Byte) : Bytes → Option Bytes
  | [] => none
  | head :: rest => if head = b then some rest else none

/-- The text after a word. -/
def readWord (word text : Bytes) : Option Bytes :=
  if word.isPrefixOf text then some (text.drop word.length) else none

/-! ## Numbers -/

/-- The digits after a point, if there is one. -/
def readFraction : Bytes → Option (Bytes × Bytes)
  | [] => some ([], [])
  | b :: rest =>
      if b = byte '.' then
        if rest.takeWhile isDigit = [] then none
        else some (rest.takeWhile isDigit, rest.dropWhile isDigit)
      else some ([], b :: rest)

/-- The exponent, if there is one. -/
def readExponent : Bytes → Option (Int × Bytes)
  | [] => some (0, [])
  | b :: rest =>
      if b = byte 'e' ∨ b = byte 'E' then
        let (negative, digits) := readSign rest
        if digits.takeWhile isDigit = [] then none
        else
          let value : Int := digitsValue 0 (digits.takeWhile isDigit)
          some (if negative then -value else value, digits.dropWhile isDigit)
      else some (0, b :: rest)

/-- The number that a sign, digits, a fraction and an exponent denote. -/
def numberValue (negative : Bool) (integer : Nat) (fraction : Bytes) (exponent : Int) : ℚ :=
  (if negative then -1 else 1) *
    (integer + (digitsValue 0 fraction : ℚ) / 10 ^ fraction.length) * 10 ^ exponent

/-- A minus sign, if there is one. -/
def readMinus : Bytes → Bool × Bytes
  | [] => (false, [])
  | b :: rest => if b = byte '-' then (true, rest) else (false, b :: rest)

/-- A number without leading zeros. -/
def readNumber (text : Bytes) : Option (ℚ × Bytes) := do
  let (negative, text) := readMinus text
  let digits := text.takeWhile isDigit
  if digits = [] ∨ (digits.head? = some 48 ∧ digits.length ≠ 1) then none
  else
    let (fraction, text) ← readFraction (text.dropWhile isDigit)
    let (exponent, text) ← readExponent text
    some (numberValue negative (digitsValue 0 digits) fraction exponent, text)

/-! ## Strings -/

/-- Where the reader of a string is: between characters, after a backslash, or after some
of the four digits of an escape. -/
inductive CharScan where
  | plain
  | escape
  | hex (seen value : Nat)

/-- The code of an escape of one letter. -/
def escapeCode (b : Byte) : Option Nat :=
  if b = quote ∨ b = backslash ∨ b = byte '/' then some b.toNat
  else if b = byte 'b' then some 8
  else if b = byte 'f' then some 12
  else if b = byte 'n' then some 10
  else if b = byte 'r' then some 13
  else if b = byte 't' then some 9
  else none

/-- A byte that stands for itself. -/
def plainByte (b : Byte) : Bool := 32 ≤ b && b < 128 && b != quote && b != backslash

/-- The rest of a string, up to the closing quote. -/
def readChars : CharScan → Bytes → Option (List Nat × Bytes)
  | _, [] => none
  | .plain, b :: rest =>
      if b = quote then some ([], rest)
      else if b = backslash then readChars .escape rest
      else if plainByte b then (readChars .plain rest).map fun (codes, text) => (b.toNat :: codes, text)
      else none
  | .escape, b :: rest =>
      if b = byte 'u' then readChars (.hex 0 0) rest
      else
        match escapeCode b with
        | none => none
        | some code => (readChars .plain rest).map fun (codes, text) => (code :: codes, text)
  | .hex seen value, b :: rest =>
      match hexDigitValue b with
      | none => none
      | some digit =>
          if seen = 3 then
            (readChars .plain rest).map fun (codes, text) =>
              ((value * 16 + digit) :: codes, text)
          else readChars (.hex (seen + 1) (value * 16 + digit)) rest

/-! ## Values -/

mutual

/-- A value. -/
def readValue : Nat → Bytes → Option (Json × Bytes)
  | 0, _ => none
  | depth + 1, text =>
      match skip text with
      | [] => none
      | b :: rest =>
          if b = quote then
            (readChars .plain rest).map fun (codes, text) => (.string codes, text)
          else if b = byte '\x7b' then
            if (skip rest).head? = some (byte '\x7d') then some (.object [], (skip rest).tail)
            else (readMembers depth rest).map fun (members, text) => (.object members, text)
          else if b = byte '[' then
            if (skip rest).head? = some (byte ']') then some (.array [], (skip rest).tail)
            else (readElements depth rest).map fun (elements, text) => (.array elements, text)
          else if b = byte 'n' then (readWord (ascii "ull") rest).map fun text => (.null, text)
          else if b = byte 't' then (readWord (ascii "rue") rest).map fun text => (.bool true, text)
          else if b = byte 'f' then
            (readWord (ascii "alse") rest).map fun text => (.bool false, text)
          else (readNumber (b :: rest)).map fun (value, text) => (.number value, text)

/-- The members of an object, up to the closing brace. -/
def readMembers : Nat → Bytes → Option (List (List Nat × Json) × Bytes)
  | 0, _ => none
  | depth + 1, text => do
      let (key, text) ← (expect quote (skip text)).bind (readChars .plain)
      let (value, text) ← (expect colon (skip text)).bind (readValue depth)
      match skip text with
      | [] => none
      | b :: rest =>
          if b = byte '\x7d' then some ([(key, value)], rest)
          else if b = comma then
            (readMembers depth rest).map fun (members, text) => ((key, value) :: members, text)
          else none

/-- The elements of an array, up to the closing bracket. -/
def readElements : Nat → Bytes → Option (List Json × Bytes)
  | 0, _ => none
  | depth + 1, text => do
      let (value, text) ← readValue depth text
      match skip text with
      | [] => none
      | b :: rest =>
          if b = byte ']' then some ([value], rest)
          else if b = comma then
            (readElements depth rest).map fun (elements, text) => (value :: elements, text)
          else none

end

/-- The value of a whole text. -/
def decode (text : Bytes) : Option Json := do
  let (value, rest) ← readValue text.length text
  if rest.all blank then some value else none

/-! ## What is read whatever follows -/

/-- A text that does not continue a number. -/
def Stops (rest : Bytes) : Prop :=
  ∀ b, rest.head? = some b → isDigit b = false ∧ b ≠ byte '.' ∧ b ≠ byte 'e' ∧ b ≠ byte 'E'

/-- The text is read as the value, and what follows is left. -/
def Reads (text : Bytes) (value : Json) : Prop :=
  ∀ depth rest, text.length ≤ depth → Stops rest → readValue depth (text ++ rest) = some (value, rest)

/-- Inside a string, the text spells the codes. -/
def Spells (text : Bytes) (codes : List Nat) : Prop :=
  ∀ rest, readChars .plain (text ++ rest) =
    (readChars .plain rest).map fun (more, left) => (codes ++ more, left)

section Rules

variable {text : Bytes} {value : Json} {codes : List Nat}

theorem stops_cons {b : Byte} (h : isDigit b = false ∧ b ≠ byte '.' ∧ b ≠ byte 'e' ∧ b ≠ byte 'E')
    (rest : Bytes) : Stops (b :: rest) := by
  intro head hhead
  rw [← Option.some.inj hhead]
  exact h

theorem Reads.decode (h : Reads text value) {rest : Bytes} (hrest : rest.all blank = true) :
    decode (text ++ rest) = some value := by
  have hstops : Stops rest := by
    intro b hb
    have hblank := List.all_eq_true.mp hrest b (List.mem_of_head? hb)
    simp only [blank, Bool.or_eq_true, beq_iff_eq] at hblank
    rcases hblank with ((rfl | rfl) | rfl) | rfl <;> decide
  have hread := h (text ++ rest).length rest (by rw [List.length_append]; omega) hstops
  rw [Json.decode, hread]
  exact if_pos hrest

theorem readWord_append (word rest : Bytes) : readWord word (word ++ rest) = some rest := by
  have hprefix : word.isPrefixOf (word ++ rest) = true :=
    List.isPrefixOf_iff_prefix.mpr (List.prefix_append word rest)
  rw [readWord, if_pos hprefix, List.drop_left]

theorem reads_null : Reads (ascii "null") .null := by
  intro depth rest hdepth _
  cases depth with
  | zero => exact absurd hdepth (by decide)
  | succ depth => exact congrArg (Option.map _) (readWord_append (ascii "ull") rest)

theorem reads_true : Reads (ascii "true") (.bool true) := by
  intro depth rest hdepth _
  cases depth with
  | zero => exact absurd hdepth (by decide)
  | succ depth => exact congrArg (Option.map _) (readWord_append (ascii "rue") rest)

theorem reads_false : Reads (ascii "false") (.bool false) := by
  intro depth rest hdepth _
  cases depth with
  | zero => exact absurd hdepth (by decide)
  | succ depth => exact congrArg (Option.map _) (readWord_append (ascii "alse") rest)

/-! ### Strings -/

theorem spells_nil : Spells [] [] := by
  intro rest
  cases h : readChars .plain rest with
  | none => simp [h]
  | some read => simp [h]

theorem Spells.append {text' : Bytes} {codes' : List Nat} (h : Spells text codes)
    (h' : Spells text' codes') : Spells (text ++ text') (codes ++ codes') := by
  intro rest
  rw [List.append_assoc, h, h']
  cases readChars .plain rest with
  | none => rfl
  | some read => simp

/-- A text that spells each of a list of codes. -/
theorem spells_flatMap {α : Type} {textOf : α → Bytes} {codeOf : α → Nat} {list : List α}
    (h : ∀ item ∈ list, Spells (textOf item) [codeOf item]) :
    Spells (list.flatMap textOf) (list.map codeOf) := by
  induction list with
  | nil => exact spells_nil
  | cons head rest ih =>
    have hhead := h head List.mem_cons_self
    have hrest := ih fun item hitem => h item (List.mem_cons_of_mem _ hitem)
    exact hhead.append hrest

theorem spells_plain {b : Byte} (h : plainByte b = true) : Spells [b] [b.toNat] := by
  intro rest
  have hquote : b ≠ quote := by
    rintro rfl
    exact absurd h (by decide)
  have hbackslash : b ≠ backslash := by
    rintro rfl
    exact absurd h (by decide)
  rw [List.singleton_append, readChars, if_neg hquote, if_neg hbackslash, if_pos h]
  rfl

theorem spells_escape {b : Byte} {code : Nat} (h : escapeCode b = some code) :
    Spells [backslash, b] [code] := by
  intro rest
  have hu : b ≠ byte 'u' := by
    rintro rfl
    have hnone : escapeCode (byte 'u') = none := by decide
    rw [hnone] at h
    cases h
  change readChars .plain (backslash :: b :: rest) = _
  rw [readChars, if_neg (by decide), if_pos rfl, readChars, if_neg hu, h]
  rfl

theorem spells_unicode {first second third fourth : Byte} {d₁ d₂ d₃ d₄ : Nat}
    (h₁ : hexDigitValue first = some d₁) (h₂ : hexDigitValue second = some d₂)
    (h₃ : hexDigitValue third = some d₃) (h₄ : hexDigitValue fourth = some d₄) :
    Spells [backslash, byte 'u', first, second, third, fourth]
      [((d₁ * 16 + d₂) * 16 + d₃) * 16 + d₄] := by
  intro rest
  change readChars .plain (backslash :: byte 'u' :: first :: second :: third :: fourth :: rest) = _
  rw [readChars, if_neg (by decide), if_pos rfl, readChars, if_pos rfl]
  simp [readChars, h₁, h₂, h₃, h₄]

/-- A string in quotes. -/
theorem reads_string (h : Spells text codes) :
    Reads (quote :: text ++ [quote]) (.string codes) := by
  intro depth rest hdepth _
  cases depth with
  | zero => simp at hdepth
  | succ depth =>
    have hchars : readChars .plain (text ++ quote :: rest) = some (codes, rest) := by
      rw [h, readChars, if_pos rfl]
      simp
    have hcons : quote :: text ++ [quote] ++ rest = quote :: (text ++ quote :: rest) := by simp
    have hskip : skip (quote :: (text ++ quote :: rest)) = quote :: (text ++ quote :: rest) := rfl
    rw [hcons, readValue, hskip]
    dsimp only
    rw [if_pos rfl, hchars]
    rfl

/-! ### Numbers -/

/-- A minus sign or nothing. -/
def minusText (negative : Bool) : Bytes := if negative then [byte '-'] else []

/-- A point and digits, or nothing. -/
def fractionText (fraction : Bytes) : Bytes := if fraction = [] then [] else byte '.' :: fraction

theorem takeWhile_digits {digits rest : Bytes} (hdigits : ∀ b ∈ digits, isDigit b = true)
    (hrest : ∀ b, rest.head? = some b → isDigit b = false) :
    (digits ++ rest).takeWhile isDigit = digits ∧ (digits ++ rest).dropWhile isDigit = rest := by
  rw [List.takeWhile_append_of_pos hdigits, List.dropWhile_append_of_pos hdigits]
  cases rest with
  | nil => exact ⟨List.append_nil digits, rfl⟩
  | cons head tail =>
    have hhead : ¬ isDigit head = true := by
      rw [hrest head rfl]
      exact Bool.false_ne_true
    rw [List.takeWhile_cons_of_neg hhead, List.dropWhile_cons_of_neg hhead, List.append_nil]
    exact ⟨rfl, rfl⟩

theorem readFraction_append {fraction rest : Bytes} (hdigits : ∀ b ∈ fraction, isDigit b = true)
    (hrest : Stops rest) : readFraction (fractionText fraction ++ rest) = some (fraction, rest) := by
  unfold fractionText
  split
  · rename_i hnone
    subst hnone
    cases rest with
    | nil => rfl
    | cons head tail => exact if_neg (hrest head rfl).2.1
  · rename_i hsome
    obtain ⟨htake, hdrop⟩ := takeWhile_digits hdigits fun b hb => (hrest b hb).1
    rw [List.cons_append, readFraction, if_pos rfl, htake, hdrop, if_neg hsome]

theorem readExponent_stops {rest : Bytes} (hrest : Stops rest) :
    readExponent rest = some (0, rest) := by
  cases rest with
  | nil => rfl
  | cons head tail =>
    obtain ⟨-, -, hlower, hupper⟩ := hrest head rfl
    exact if_neg (not_or.mpr ⟨hlower, hupper⟩)

theorem head_fractionText {fraction rest : Bytes} (hrest : Stops rest) (b : Byte)
    (hb : (fractionText fraction ++ rest).head? = some b) : isDigit b = false := by
  unfold fractionText at hb
  split at hb
  · exact (hrest b hb).1
  · rw [← Option.some.inj hb]
    rfl

theorem readMinus_append (negative : Bool) (n : Nat) (rest : Bytes) :
    readMinus (minusText negative ++ (decimalNat n ++ rest)) = (negative, decimalNat n ++ rest) := by
  cases negative with
  | true => rfl
  | false =>
    cases hdigits : decimalNat n with
    | nil => exact absurd hdigits (decimalNat_ne_nil n)
    | cons head tail =>
      have hhead : isDigit head = true :=
        isDigit_of_mem_decimalNat (hdigits ▸ List.mem_cons_self)
      have hminus : head ≠ byte '-' := by
        rintro rfl
        exact absurd hhead (by decide)
      exact if_neg hminus

theorem readNumber_append {fraction rest : Bytes} (negative : Bool) (n : Nat)
    (hdigits : ∀ b ∈ fraction, isDigit b = true) (hrest : Stops rest) :
    readNumber (minusText negative ++ decimalNat n ++ fractionText fraction ++ rest) =
      some (numberValue negative n fraction 0, rest) := by
  obtain ⟨htake, hdrop⟩ := @takeWhile_digits (decimalNat n) (fractionText fraction ++ rest)
    (fun b hb => isDigit_of_mem_decimalNat hb) (head_fractionText hrest)
  have hzero : ¬ (decimalNat n = [] ∨
      ((decimalNat n).head? = some 48 ∧ (decimalNat n).length ≠ 1)) := by
    rintro (hnil | ⟨hhead, hlong⟩)
    · exact decimalNat_ne_nil n hnil
    · by_cases hn : n = 0
      · subst hn
        exact hlong rfl
      · exact head_decimalNat hn hhead
  rw [List.append_assoc, List.append_assoc, readNumber, readMinus_append]
  dsimp only
  rw [htake, hdrop, if_neg hzero, readFraction_append hdigits hrest]
  simp [readExponent_stops hrest, digitsValue_decimalNat]

/-- The value that a digit or a minus sign begins. -/
theorem readValue_number {b : Byte} (h : b = byte '-' ∨ isDigit b = true) (depth : Nat)
    (rest : Bytes) :
    readValue (depth + 1) (b :: rest) =
      (readNumber (b :: rest)).map fun (value, text) => (.number value, text) := by
  have hother : ∀ other : Byte, other ≠ byte '-' → isDigit other = false → b ≠ other := by
    rintro other hminus hdigit rfl
    rcases h with rfl | hb
    · exact hminus rfl
    · rw [hdigit] at hb
      cases hb
  have hblank : blank b = false := by
    simp only [blank, Bool.or_eq_false_iff, beq_eq_false_iff_ne]
    refine ⟨⟨⟨?_, ?_⟩, ?_⟩, ?_⟩ <;> exact hother _ (by decide) (by decide)
  have hskip : skip (b :: rest) = b :: rest :=
    List.dropWhile_cons_of_neg (by rw [hblank]; exact Bool.false_ne_true)
  rw [readValue, hskip]
  dsimp only
  rw [if_neg (hother _ (by decide) (by decide)), if_neg (hother _ (by decide) (by decide)),
    if_neg (hother _ (by decide) (by decide)), if_neg (hother _ (by decide) (by decide)),
    if_neg (hother _ (by decide) (by decide)), if_neg (hother _ (by decide) (by decide))]

/-- A number without exponent. -/
theorem reads_number {fraction : Bytes} (negative : Bool) (n : Nat)
    (hdigits : ∀ b ∈ fraction, isDigit b = true) :
    Reads (minusText negative ++ decimalNat n ++ fractionText fraction)
      (.number (numberValue negative n fraction 0)) := by
  intro depth rest hdepth hrest
  have hread := readNumber_append negative n hdigits hrest
  have hfirst : ∃ head tail, minusText negative ++ decimalNat n ++ fractionText fraction ++ rest =
      head :: tail ∧ (head = byte '-' ∨ isDigit head = true) := by
    cases negative with
    | true => exact ⟨byte '-', _, rfl, Or.inl rfl⟩
    | false =>
      cases hn : decimalNat n with
      | nil => exact absurd hn (decimalNat_ne_nil n)
      | cons head tail =>
        exact ⟨head, _, rfl, Or.inr (isDigit_of_mem_decimalNat (hn ▸ List.mem_cons_self))⟩
  obtain ⟨head, tail, htext, hhead⟩ := hfirst
  cases depth with
  | zero =>
    have hnil := List.eq_nil_of_length_eq_zero (Nat.le_zero.mp hdepth)
    rw [List.append_eq_nil_iff, List.append_eq_nil_iff] at hnil
    exact absurd hnil.1.2 (decimalNat_ne_nil n)
  | succ depth =>
    rw [htext] at hread ⊢
    rw [readValue_number hhead, hread]
    rfl

theorem reads_nat (n : Nat) : Reads (decimalNat n) (.number n) := by
  have h := @reads_number [] false n (by simp)
  simpa [minusText, fractionText, numberValue, digitsValue] using h

theorem reads_int (i : Int) : Reads (decimalInt i) (.number i) := by
  have h := @reads_number [] (decide (i < 0)) i.natAbs (by simp)
  have hvalue : numberValue (decide (i < 0)) i.natAbs [] 0 = i := by
    by_cases hneg : i < 0
    · simp [numberValue, digitsValue, hneg, abs_of_neg]
    · simp [numberValue, digitsValue, hneg, abs_of_nonneg (not_lt.mp hneg)]
  rw [hvalue] at h
  unfold decimalInt
  split
  · rename_i hneg
    simpa [minusText, fractionText, hneg] using h
  · rename_i hneg
    simpa [minusText, fractionText, hneg] using h

/-! ### Objects -/

/-- The texts of a list, separated by commas. -/
def joined : List Bytes → Bytes
  | [] => []
  | [text] => text
  | text :: rest => text ++ comma :: joined rest

theorem joined_cons (head : Bytes) (rest : List Bytes) :
    joined (head :: rest) = head ++ rest.flatMap fun text => comma :: text := by
  induction rest generalizing head with
  | nil => simp [joined]
  | cons next rest ih =>
    rw [joined, ih, List.flatMap_cons, List.cons_append]
    simp

/-- Each text is counted with one comma, the last one too many. -/
theorem joined_length {texts : List Bytes} (hsome : texts ≠ []) :
    (joined texts).length + 1 = (texts.map fun text => text.length + 1).sum := by
  cases texts with
  | nil => exact absurd rfl hsome
  | cons head rest =>
    have hrest : (rest.flatMap fun text => comma :: text).length =
        (rest.map fun text => text.length + 1).sum := by
      rw [List.length_flatMap]
      rfl
    rw [joined_cons, List.length_append, hrest, List.map_cons, List.sum_cons]
    omega

/-- A member of an object: a key that spells its codes and a text that is read as its
value. -/
inductive ReadsMember : Bytes → List Nat × Json → Prop
  | member {key valueText : Bytes} {codes : List Nat} {value : Json} (spells : Spells key codes)
      (reads : Reads valueText value) :
      ReadsMember (quote :: key ++ [quote, colon] ++ valueText) (codes, value)

theorem skip_cons {b : Byte} (h : blank b = false) (rest : Bytes) : skip (b :: rest) = b :: rest :=
  List.dropWhile_cons_of_neg (by rw [h]; exact Bool.false_ne_true)

/-- One member, and what comes after it. -/
theorem readMembers_member {member : List Nat × Json} (h : ReadsMember text member) {depth : Nat}
    (hdepth : text.length ≤ depth) {b : Byte} (hb : blank b = false) {rest : Bytes}
    (hstops : Stops (b :: rest)) :
    readMembers (depth + 1) (text ++ b :: rest) =
      if b = byte '\x7d' then some ([member], rest)
      else if b = comma then
        (readMembers depth rest).map fun (members, text) => (member :: members, text)
      else none := by
  cases h with
  | @member key valueText codes value hkey hvalue =>
    have htext : quote :: key ++ [quote, colon] ++ valueText ++ b :: rest =
        quote :: (key ++ quote :: colon :: (valueText ++ b :: rest)) := by simp
    have hchars : readChars .plain (key ++ quote :: colon :: (valueText ++ b :: rest)) =
        some (codes, colon :: (valueText ++ b :: rest)) := by
      rw [hkey, readChars, if_pos rfl]
      simp
    have hread := hvalue depth (b :: rest) (by simp at hdepth; omega) hstops
    rw [htext, readMembers, skip_cons rfl]
    simp only [expect, if_true, Option.bind_some, Option.bind_eq_bind, hchars]
    rw [skip_cons rfl]
    simp only [if_true, Option.bind_some, hread, skip_cons hb]

theorem readMembers_joined {texts : List Bytes} {members : List (List Nat × Json)}
    (h : List.Forall₂ ReadsMember texts members) (hsome : texts ≠ []) {depth : Nat}
    (hdepth : (joined texts).length < depth) (rest : Bytes) :
    readMembers depth (joined texts ++ byte '\x7d' :: rest) = some (members, rest) := by
  induction h generalizing depth with
  | nil => exact absurd rfl hsome
  | @cons text member texts members hmember hmembers ih =>
    obtain ⟨depth, rfl⟩ : ∃ smaller, depth = smaller + 1 := ⟨depth - 1, by omega⟩
    cases texts with
    | nil =>
      cases hmembers
      rw [joined] at hdepth ⊢
      rw [readMembers_member hmember (by omega) rfl (stops_cons (by decide) rest), if_pos rfl]
    | cons next texts =>
      have hjoined : joined (text :: next :: texts) ++ byte '\x7d' :: rest =
          text ++ comma :: (joined (next :: texts) ++ byte '\x7d' :: rest) := by
        simp [joined]
      have hlength : (joined (text :: next :: texts)).length =
          text.length + (1 + (joined (next :: texts)).length) := by
        simp [joined, Nat.add_comm]
      rw [hlength] at hdepth
      rw [hjoined, readMembers_member hmember (by omega) rfl (stops_cons (by decide) _),
        if_neg (by decide), if_pos rfl, ih (by simp) (by omega)]
      rfl

/-- The first member begins with a quote. -/
theorem joined_quote {texts : List Bytes} {members : List (List Nat × Json)}
    (h : List.Forall₂ ReadsMember texts members) (hsome : texts ≠ []) (rest : Bytes) :
    ∃ tail, joined texts ++ rest = quote :: tail := by
  cases h with
  | nil => exact absurd rfl hsome
  | @cons text member texts members hmember hmembers =>
    cases hmember
    cases texts with
    | nil => exact ⟨_, rfl⟩
    | cons next texts => exact ⟨_, rfl⟩

/-- An object in braces. -/
theorem reads_object {texts : List Bytes} {members : List (List Nat × Json)}
    (h : List.Forall₂ ReadsMember texts members) (hsome : texts ≠ []) :
    Reads (byte '\x7b' :: joined texts ++ [byte '\x7d']) (.object members) := by
  intro depth rest hdepth _
  cases depth with
  | zero => simp at hdepth
  | succ depth =>
    have hcons : byte '\x7b' :: joined texts ++ [byte '\x7d'] ++ rest =
        byte '\x7b' :: (joined texts ++ byte '\x7d' :: rest) := by simp
    have hroom : (joined texts).length < depth := by
      simp only [List.cons_append, List.length_cons, List.length_append] at hdepth
      omega
    have hmembers := readMembers_joined h hsome hroom rest
    obtain ⟨tail, htail⟩ := joined_quote h hsome (byte '\x7d' :: rest)
    rw [hcons, readValue, skip_cons rfl]
    dsimp only
    rw [if_neg (by decide), if_pos rfl, hmembers, htail, skip_cons rfl,
      if_neg (by simp [quote, byte])]
    rfl

/-! ### Arrays -/

/-- No value begins with a closing bracket. -/
theorem Reads.head (h : Reads text value) {rest : Bytes} (hrest : Stops rest) :
    (skip (text ++ rest)).head? ≠ some (byte ']') := by
  intro hhead
  have hread := h (text.length + 1) rest (Nat.le_succ _) hrest
  cases htext : skip (text ++ rest) with
  | nil => simp [htext] at hhead
  | cons b tail =>
    rw [htext, List.head?_cons, Option.some.injEq] at hhead
    subst hhead
    -- what is left is a number, and a bracket is not the beginning of one
    have hnumber : readNumber (byte ']' :: tail) = none := by
      have hdigits : (byte ']' :: tail).takeWhile isDigit = [] :=
        List.takeWhile_cons_of_neg (by decide)
      rw [readNumber, readMinus, if_neg (by decide)]
      simp only [hdigits, true_or, if_true]
    rw [readValue, htext] at hread
    dsimp only at hread
    rw [if_neg (by decide), if_neg (by decide), if_neg (by decide), if_neg (by decide),
      if_neg (by decide), if_neg (by decide), hnumber] at hread
    cases hread

theorem readElements_joined {texts : List Bytes} {values : List Json}
    (h : List.Forall₂ Reads texts values) (hsome : texts ≠ []) {depth : Nat}
    (hdepth : (joined texts).length < depth) (rest : Bytes) :
    readElements depth (joined texts ++ byte ']' :: rest) = some (values, rest) := by
  induction h generalizing depth with
  | nil => exact absurd rfl hsome
  | @cons text value texts values hvalue hvalues ih =>
    obtain ⟨depth, rfl⟩ : ∃ smaller, depth = smaller + 1 := ⟨depth - 1, by omega⟩
    cases texts with
    | nil =>
      cases hvalues
      rw [joined] at hdepth ⊢
      rw [readElements, hvalue depth _ (by omega) (stops_cons (by decide) rest)]
      simp only [Option.bind_eq_bind, Option.bind_some]
      rw [skip_cons (by decide)]
      exact if_pos rfl
    | cons next texts =>
      have hjoined : joined (text :: next :: texts) ++ byte ']' :: rest =
          text ++ comma :: (joined (next :: texts) ++ byte ']' :: rest) := by
        simp [joined]
      have hlength : (joined (text :: next :: texts)).length =
          text.length + (1 + (joined (next :: texts)).length) := by
        simp [joined, Nat.add_comm]
      rw [hlength] at hdepth
      rw [hjoined, readElements, hvalue depth _ (by omega) (stops_cons (by decide) _)]
      simp only [Option.bind_eq_bind, Option.bind_some]
      rw [skip_cons (by decide)]
      dsimp only
      rw [if_neg (by decide), if_pos rfl, ih (by simp) (by omega)]
      rfl

/-- An array in brackets. -/
theorem reads_array {texts : List Bytes} {values : List Json}
    (h : List.Forall₂ Reads texts values) :
    Reads (byte '[' :: joined texts ++ [byte ']']) (.array values) := by
  intro depth rest hdepth _
  cases depth with
  | zero => simp at hdepth
  | succ depth =>
    have hcons : byte '[' :: joined texts ++ [byte ']'] ++ rest =
        byte '[' :: (joined texts ++ byte ']' :: rest) := by simp
    rw [hcons, readValue, skip_cons (by decide)]
    dsimp only
    rw [if_neg (by decide), if_neg (by decide), if_pos rfl]
    cases h with
    | nil => rfl
    | @cons text value texts values hvalue hvalues =>
      have hroom : (joined (text :: texts)).length < depth := by
        simp only [List.cons_append, List.length_cons, List.length_append] at hdepth
        omega
      have helements := readElements_joined (.cons hvalue hvalues) (by simp) hroom rest
      -- the first element does not begin with the bracket that would close an empty array
      have hhead : (skip (joined (text :: texts) ++ byte ']' :: rest)).head? ≠ some (byte ']') := by
        cases texts with
        | nil => exact hvalue.head (stops_cons (by decide) rest)
        | cons next texts =>
          have hjoined : joined (text :: next :: texts) ++ byte ']' :: rest =
              text ++ comma :: (joined (next :: texts) ++ byte ']' :: rest) := by
            simp [joined]
          rw [hjoined]
          exact hvalue.head (stops_cons (by decide) _)
      rw [if_neg hhead, helements]
      rfl

end Rules

end Json

end LearnApue.Foundation
