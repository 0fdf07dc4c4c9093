import LearnApue.Foundation.FixedPoint
import LearnApue.Foundation.Lines

set_option autoImplicit false

/-!
# Tables as text

A table is printed row by row: the fields of a row stand between separators and a newline
ends it.  Where no field has a separator or a newline, the text is read back as the table
it was printed from (`rows_table`), and the numbers in its fields as the numbers.
-/

namespace LearnApue.Foundation.Table

section Rows

variable {α : Type} {separator newline : α}

/-- The text of a row. -/
def rowText (separator newline : α) (fields : List (List α)) : List α :=
  [separator].intercalate fields ++ [newline]

/-- The text of a table. -/
def tableText (separator newline : α) (table : List (List (List α))) : List α :=
  table.flatMap (rowText separator newline)

/-- A row that can be cut into its fields again. -/
structure Plain (separator newline : α) (fields : List (List α)) : Prop where
  some : fields ≠ []
  separators : ∀ field ∈ fields, separator ∉ field
  newlines : ∀ field ∈ fields, newline ∉ field

theorem notMem_intercalate (hne : newline ≠ separator) {fields : List (List α)}
    (h : ∀ field ∈ fields, newline ∉ field) : newline ∉ [separator].intercalate fields := by
  induction fields with
  | nil => simp
  | cons field rest ih =>
    have hfield := h field List.mem_cons_self
    have hrest := ih fun other hother => h other (List.mem_cons_of_mem _ hother)
    cases rest with
    | nil => simpa using hfield
    | cons next later =>
      rw [List.intercalate_cons_cons]
      simp [hfield, hne, hrest]

variable [DecidableEq α]

/-- The rows that a newline ends, cut into their fields. -/
def rows (separator newline : α) (text : List α) : List (List (List α)) :=
  (Lines.complete newline text).map fun line => line.splitOn separator

theorem rows_rowText (hne : newline ≠ separator) {fields : List (List α)}
    (h : Plain separator newline fields) (rest : List α) :
    rows separator newline (rowText separator newline fields ++ rest) =
      fields :: rows separator newline rest := by
  have hline := notMem_intercalate hne h.newlines
  have hsplit : (rowText separator newline fields ++ rest).splitOn newline =
      [separator].intercalate fields :: rest.splitOn newline := by
    rw [rowText, List.append_assoc, List.singleton_append,
      List.splitOn_append_cons_self_of_not_mem hline]
  rw [rows, rows, Lines.complete, hsplit, List.dropLast_cons_of_ne_nil (List.splitOn_ne_nil _ _),
    List.map_cons, List.splitOn_intercalate separator h.separators h.some, Lines.complete]

/-- A table is read back from its text. -/
theorem rows_table (hne : newline ≠ separator) {table : List (List (List α))}
    (h : ∀ fields ∈ table, Plain separator newline fields) :
    rows separator newline (tableText separator newline table) = table := by
  induction table with
  | nil => rfl
  | cons fields rest ih =>
    rw [tableText, List.flatMap_cons, rows_rowText hne (h fields List.mem_cons_self), ← tableText,
      ih fun other hother => h other (List.mem_cons_of_mem _ hother)]

end Rows

/-! ## Numbers in fields -/

/-- A decimal numeral with a sign. -/
def readInteger (text : Bytes) : Option Int :=
  let (negative, digits) := readSign text
  if IsNumeral digits then
    some (if negative then -(digitsValue 0 digits : Int) else digitsValue 0 digits)
  else none

/-- The last two digits of a number. -/
def twoDigits (n : Nat) : Bytes := [UInt8.ofNat (48 + n / 10 % 10), UInt8.ofNat (48 + n % 10)]

/-- The text of so many hundredths. -/
def hundredthsText (magnitude : Nat) : Bytes :=
  decimalNat (magnitude / 100) ++ byte '.' :: twoDigits magnitude

/-- `%.2f`. -/
def decimalHundredths (value : ℚ) : Bytes :=
  (if value < 0 then [byte '-'] else []) ++ hundredthsText (hundredths value).natAbs

/-- A decimal numeral with a sign and two digits behind the point, in hundredths. -/
def readHundredths (text : Bytes) : Option Int :=
  let (negative, digits) := readSign text
  match digits.splitOn (byte '.') with
  | [whole, fraction] =>
      if IsNumeral whole ∧ IsNumeral fraction ∧ fraction.length = 2 then
        let magnitude : Int := digitsValue 0 whole * 100 + digitsValue 0 fraction
        some (if negative then -magnitude else magnitude)
      else none
  | _ => none

theorem readSign_minus (digits : Bytes) : readSign (byte '-' :: digits) = (true, digits) := by
  rw [readSign, if_pos rfl]

/-- A digit is no sign. -/
theorem readSign_digit {b : Byte} (h : isDigit b = true) (rest : Bytes) :
    readSign (b :: rest) = (false, b :: rest) := by
  have hminus : b ≠ byte '-' := by
    rintro rfl
    exact absurd h (by decide)
  have hplus : b ≠ byte '+' := by
    rintro rfl
    exact absurd h (by decide)
  rw [readSign, if_neg hminus, if_neg hplus]

theorem readInteger_decimalInt (value : Int) : readInteger (decimalInt value) = some value := by
  have hnumeral := isNumeral_decimalNat value.natAbs
  by_cases hneg : value < 0
  · rw [decimalInt, if_pos hneg, readInteger, readSign_minus]
    dsimp only
    rw [if_pos hnumeral, digitsValue_decimalNat, if_pos rfl]
    congr 1
    omega
  · rw [decimalInt, if_neg hneg, readInteger, readSign_digits hnumeral.2]
    dsimp only
    rw [if_pos hnumeral, digitsValue_decimalNat, if_neg Bool.false_ne_true]
    congr 1
    omega

theorem readInteger_decimalNat (n : Nat) : readInteger (decimalNat n) = some (n : Int) := by
  have hread := readInteger_decimalInt n
  rwa [decimalInt_of_nonneg (Int.natCast_nonneg n), Int.toNat_natCast] at hread

theorem isNumeral_twoDigits (n : Nat) : IsNumeral (twoDigits n) := by
  have hdigit : ∀ d, d < 10 → isDigit (UInt8.ofNat (48 + d)) = true := by decide
  refine ⟨List.cons_ne_nil _ _, ?_⟩
  intro b hb
  rcases List.mem_pair.mp hb with rfl | rfl
  · exact hdigit _ (Nat.mod_lt _ (by decide))
  · exact hdigit _ (Nat.mod_lt _ (by decide))

theorem digitsValue_twoDigits (n : Nat) : digitsValue 0 (twoDigits n) = n % 100 := by
  have hdigit : ∀ m, (UInt8.ofNat (48 + m % 10)).toNat = 48 + m % 10 := fun m =>
    toNat_digitByte (Nat.mod_lt m (by decide))
  simp only [twoDigits, digitsValue, List.foldl_cons, List.foldl_nil, hdigit]
  omega

theorem readHundredths_behindSign {text : Bytes} {negative : Bool} {magnitude : Nat}
    (h : readSign text = (negative, hundredthsText magnitude)) :
    readHundredths text = some (if negative then -(magnitude : Int) else magnitude) := by
  have hwhole := isNumeral_decimalNat (magnitude / 100)
  have hfraction := isNumeral_twoDigits magnitude
  have hpoint : isDigit (byte '.') ≠ true := by decide
  have hsplit : (hundredthsText magnitude).splitOn (byte '.') =
      [decimalNat (magnitude / 100), twoDigits magnitude] := by
    rw [hundredthsText,
      List.splitOn_append_cons_self_of_not_mem fun hmem => hpoint (hwhole.2 _ hmem),
      List.splitOn_eq_singleton fun hmem => hpoint (hfraction.2 _ hmem)]
  have hvalue : ((magnitude / 100 : Nat) : Int) * 100 + (magnitude % 100 : Nat) = magnitude := by
    omega
  rw [readHundredths, h]
  dsimp only
  rw [hsplit]
  dsimp only
  rw [if_pos ⟨hwhole, hfraction, rfl⟩, digitsValue_decimalNat, digitsValue_twoDigits, hvalue]

/-- What is printed with two digits behind the point is read as the hundredths. -/
theorem readHundredths_decimalHundredths (value : ℚ) :
    readHundredths (decimalHundredths value) = some (hundredths value) := by
  have hzero : hundredths 0 = 0 := hundredths_intCast 0
  by_cases hneg : value < 0
  · have hsign := hundredths_mono hneg.le
    have htext : decimalHundredths value =
        byte '-' :: hundredthsText (hundredths value).natAbs := by
      rw [decimalHundredths, if_pos hneg, List.singleton_append]
    rw [htext, readHundredths_behindSign (readSign_minus _), if_pos rfl]
    congr 1
    omega
  · have hsign := hundredths_mono (not_lt.mp hneg)
    have htext : decimalHundredths value = hundredthsText (hundredths value).natAbs := by
      rw [decimalHundredths, if_neg hneg, List.nil_append]
    have hread : readSign (hundredthsText (hundredths value).natAbs) =
        (false, hundredthsText (hundredths value).natAbs) := by
      have hwhole := isNumeral_decimalNat ((hundredths value).natAbs / 100)
      obtain ⟨b, rest, hcons⟩ := List.exists_cons_of_ne_nil hwhole.1
      rw [hundredthsText, hcons, List.cons_append]
      exact readSign_digit (hwhole.2 b (by rw [hcons]; exact List.mem_cons_self)) _
    rw [htext, readHundredths_behindSign hread, if_neg Bool.false_ne_true]
    congr 1
    omega

end LearnApue.Foundation.Table
