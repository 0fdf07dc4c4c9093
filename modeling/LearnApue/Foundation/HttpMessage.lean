import LearnApue.Foundation.Decimal
import LearnApue.Foundation.Substring

set_option autoImplicit false

/-!
# Messages with a header and a counted body

A message is a start line, header fields and a body whose length one of the fields
tells.  The reader is a client of such a stream: it takes lines up to an empty one, cuts
the fields at their first colon and takes as many bytes of body as were announced.

A framed message reads back as itself whatever follows it (`read_text`), and what a
reader has read does not change when more arrives (`read_append`).  So no proper front
of a framed message reads as a message (`read_front`), and a sender whose connection
breaks is never taken for one that finished.
-/

namespace LearnApue.Foundation.HttpMessage

open LearnApue.Foundation LearnApue.Foundation.Substring

/-! ## Messages -/

/-- The end of a line. -/
def lineEnd : Bytes := [carriageReturn, newline]

/-- `':'`. -/
def colon : Byte := byte ':'

/-- `' '`. -/
def blank : Byte := byte ' '

/-- A header field. -/
structure HeaderField where
  name : Bytes
  value : Bytes
  deriving DecidableEq

/-- A message. -/
structure Message where
  startLine : Bytes
  fields : List HeaderField
  body : Bytes
  deriving DecidableEq

/-- A field's line, without its end. -/
def HeaderField.line (field : HeaderField) : Bytes := field.name ++ [colon, blank] ++ field.value

/-- Lines with their ends. -/
def linesText (lines : List Bytes) : Bytes := lines.flatMap fun line => line ++ lineEnd

namespace Message

variable (message : Message)

/-- The lines of the header. -/
def lines : List Bytes := message.startLine :: message.fields.map HeaderField.line

/-- The header, with the empty line behind it. -/
def header : Bytes := linesText message.lines ++ lineEnd

/-- The bytes of a message. -/
def text : Bytes := message.header ++ message.body

end Message

/-! ## Reading -/

/-- The lines up to the first empty one, and what follows it. -/
def readLines : Nat → Bytes → Option (List Bytes × Bytes)
  | 0, _ => none
  | fuel + 1, stream =>
      match strstr stream lineEnd with
      | none => none
      | some (line, rest) =>
          if line = [] then some ([], rest)
          else (readLines fuel rest).map fun result => (line :: result.1, result.2)

/-- A field from its line: the name ends at the first colon, and the value starts behind
the blanks. -/
def readField (line : Bytes) : Option HeaderField :=
  match line.dropWhile fun b => b ≠ colon with
  | [] => none
  | _ :: value =>
      some ⟨line.takeWhile fun b => b ≠ colon, value.dropWhile fun b => b = blank⟩

/-- The value of the first field of a name. -/
def fieldValue (name : Bytes) (fields : List HeaderField) : Option Bytes :=
  (fields.find? fun field => field.name = name).map HeaderField.value

/-- A numeral that is the whole text. -/
def readNumber (text : Bytes) : Option Nat :=
  if IsNumeral text then some (digitsValue 0 text) else none

/-- The length that the header announces. -/
def announced (fields : List HeaderField) : Option Nat :=
  (fieldValue (ascii "Content-Length") fields).bind readNumber

/-- The message at the front of a stream, and what follows it. -/
def read (stream : Bytes) : Option (Message × Bytes) :=
  match readLines stream.length stream with
  | none | some ([], _) => none
  | some (startLine :: lines, rest) =>
      match lines.mapM readField with
      | none => none
      | some fields =>
          match announced fields with
          | none => none
          | some length =>
              if rest.length < length then none
              else some (⟨startLine, fields, rest.take length⟩, rest.drop length)

/-! ## Framed messages -/

/-- A line that ends where its end stands. -/
def IsLine (line : Bytes) : Prop := line ≠ [] ∧ carriageReturn ∉ line

/-- A field that its line tells. -/
structure HeaderField.Plain (field : HeaderField) : Prop where
  name : colon ∉ field.name
  value : field.value.head? ≠ some blank
  line : carriageReturn ∉ field.line

instance (field : HeaderField) : Decidable field.Plain :=
  decidable_of_iff
    (colon ∉ field.name ∧ field.value.head? ≠ some blank ∧ carriageReturn ∉ field.line)
    ⟨fun h => ⟨h.1, h.2.1, h.2.2⟩, fun h => ⟨h.name, h.value, h.line⟩⟩

/-- A message whose header tells where everything ends. -/
structure Message.Framed (message : Message) : Prop where
  startLine : IsLine message.startLine
  fields : ∀ field ∈ message.fields, field.Plain
  length : announced message.fields = some message.body.length

/-! ## Lines -/

theorem strstr_lineEnd {line : Bytes} (h : carriageReturn ∉ line) (rest : Bytes) :
    strstr (line ++ lineEnd ++ rest) lineEnd = some (line, rest) := by
  refine strstr_eq_some_iff.mpr ⟨rfl, fun before after heq => ?_⟩
  by_contra hshort
  have hlt : before.length < line.length := Nat.lt_of_not_le hshort
  -- the end would start inside the line
  have hget : (line ++ lineEnd ++ rest)[before.length]? = some carriageReturn := by
    rw [heq, List.append_assoc, List.getElem?_append_right (le_refl _), Nat.sub_self]
    rfl
  rw [List.append_assoc, List.getElem?_append_left hlt] at hget
  exact h (List.mem_of_getElem? hget)

/-- Lines and an empty one read back, whatever follows. -/
theorem readLines_text {lines : List Bytes} (h : ∀ line ∈ lines, IsLine line) (rest : Bytes)
    {fuel : Nat} (hfuel : lines.length < fuel) :
    readLines fuel (linesText lines ++ lineEnd ++ rest) = some (lines, rest) := by
  induction lines generalizing fuel with
  | nil =>
    obtain ⟨fuel, rfl⟩ := Nat.exists_eq_succ_of_ne_zero (Nat.ne_of_gt hfuel)
    have hempty := strstr_lineEnd (List.not_mem_nil (a := carriageReturn)) rest
    rw [List.nil_append] at hempty
    rw [linesText, List.flatMap_nil, List.nil_append, readLines, hempty]
    exact if_pos rfl
  | cons line lines ih =>
    obtain ⟨fuel, rfl⟩ := Nat.exists_eq_succ_of_ne_zero (Nat.ne_of_gt (Nat.zero_lt_of_lt hfuel))
    obtain ⟨hne, hplain⟩ := h line List.mem_cons_self
    have hrest := ih (fun other hother => h other (List.mem_cons_of_mem _ hother))
      (Nat.lt_of_succ_lt_succ hfuel)
    have hstream : linesText (line :: lines) ++ lineEnd ++ rest =
        line ++ lineEnd ++ (linesText lines ++ lineEnd ++ rest) := by
      unfold linesText
      rw [List.flatMap_cons]
      simp only [List.append_assoc]
    rw [hstream, readLines, strstr_lineEnd hplain]
    dsimp only
    rw [if_neg hne, hrest, Option.map_some]

/-- Every line takes bytes of the stream. -/
theorem linesText_length (lines : List Bytes) : lines.length ≤ (linesText lines).length := by
  induction lines with
  | nil => exact le_refl _
  | cons line lines ih =>
    have hcons : (linesText (line :: lines)).length =
        line.length + 2 + (linesText lines).length := by
      rw [linesText, List.flatMap_cons, List.length_append, List.length_append]
      rfl
    rw [hcons, List.length_cons]
    omega

/-- Lines that were read are the same when more fuel is given or more arrives. -/
theorem readLines_append {fuel more : Nat} {stream rest : Bytes} {lines : List Bytes}
    (h : readLines fuel stream = some (lines, rest)) (hmore : fuel ≤ more) (later : Bytes) :
    readLines more (stream ++ later) = some (lines, rest ++ later) := by
  induction fuel generalizing more stream lines with
  | zero => cases h
  | succ fuel ih =>
    obtain ⟨more, rfl⟩ := Nat.exists_eq_succ_of_ne_zero (Nat.ne_of_gt (Nat.zero_lt_of_lt hmore))
    rw [readLines] at h ⊢
    cases hfound : strstr stream lineEnd with
    | none =>
      rw [hfound] at h
      cases h
    | some found =>
      obtain ⟨line, behind⟩ := found
      obtain ⟨rfl, -⟩ := strstr_eq_some_iff.mp hfound
      have hlater := strstr_rest hfound (behind ++ later)
      rw [← List.append_assoc] at hlater
      rw [hfound] at h
      rw [hlater]
      dsimp only at h ⊢
      split at h
      · obtain ⟨rfl, rfl⟩ := Prod.mk.inj (Option.some.inj h)
        rename_i hempty
        rw [if_pos hempty]
      · rename_i hline
        obtain ⟨⟨others, behind'⟩, hothers, heq⟩ := Option.map_eq_some_iff.mp h
        obtain ⟨rfl, rfl⟩ := Prod.mk.inj heq
        rw [if_neg hline, ih hothers (Nat.le_of_succ_le_succ hmore), Option.map_some]

/-! ## Fields -/

theorem readField_line {field : HeaderField} (h : field.Plain) : readField field.line = some field := by
  have hall : ∀ b ∈ field.name, decide (b ≠ colon) = true :=
    fun b hb => decide_eq_true fun heq => h.name (heq ▸ hb)
  have hvalue : field.value.dropWhile (fun b => decide (b = blank)) = field.value := by
    cases hcases : field.value with
    | nil => rfl
    | cons b rest =>
      have hb : b ≠ blank := by
        rintro rfl
        exact h.value (by rw [hcases]; rfl)
      exact List.dropWhile_cons_of_neg (by simpa using hb)
  unfold readField HeaderField.line
  rw [List.append_assoc, List.dropWhile_append_of_pos hall, List.takeWhile_append_of_pos hall]
  simp [hvalue]

theorem readField_lines {fields : List HeaderField} (h : ∀ field ∈ fields, field.Plain) :
    (fields.map HeaderField.line).mapM readField = some fields := by
  induction fields with
  | nil => rfl
  | cons field fields ih =>
    rw [List.map_cons, List.mapM_cons, readField_line (h field List.mem_cons_self),
      ih fun other hother => h other (List.mem_cons_of_mem _ hother)]
    rfl

theorem readNumber_decimalNat (n : Nat) : readNumber (decimalNat n) = some n := by
  rw [readNumber, if_pos (isNumeral_decimalNat n), digitsValue_decimalNat]

/-- A field of another name is passed over. -/
theorem fieldValue_cons_of_ne {name other : Bytes} (h : other ≠ name) (value : Bytes)
    (fields : List HeaderField) :
    fieldValue name (⟨other, value⟩ :: fields) = fieldValue name fields := by
  unfold fieldValue
  rw [List.find?_cons_of_neg (by simpa using h)]

theorem fieldValue_cons_self (name value : Bytes) (fields : List HeaderField) :
    fieldValue name (⟨name, value⟩ :: fields) = some value := by
  unfold fieldValue
  rw [List.find?_cons_of_pos (by simp)]
  rfl

/-! ## Messages -/

theorem Message.Framed.lines {message : Message} (h : message.Framed) :
    ∀ line ∈ message.lines, IsLine line := by
  intro line hline
  rcases List.mem_cons.mp hline with rfl | hline
  · exact h.startLine
  · obtain ⟨field, hfield, rfl⟩ := List.mem_map.mp hline
    refine ⟨fun hempty => ?_, (h.fields field hfield).line⟩
    have hcolon : colon ∈ field.line := by simp [HeaderField.line]
    rw [hempty] at hcolon
    exact List.not_mem_nil hcolon

/-- A framed message reads back as itself, and what follows it is left. -/
theorem read_text {message : Message} (h : message.Framed) (rest : Bytes) :
    read (message.text ++ rest) = some (message, rest) := by
  have hstream : message.text ++ rest =
      linesText message.lines ++ lineEnd ++ (message.body ++ rest) := by
    unfold Message.text Message.header
    rw [List.append_assoc]
  have hfuel : message.lines.length < (message.text ++ rest).length := by
    have hle := linesText_length message.lines
    rw [hstream]
    simp only [List.length_append, lineEnd, List.length_cons]
    omega
  unfold read
  rw [hstream, readLines_text h.lines _ (by rw [← hstream]; exact hfuel)]
  show (match (message.fields.map HeaderField.line).mapM readField with
    | none => none
    | some fields => match announced fields with
      | none => none
      | some length =>
        if (message.body ++ rest).length < length then none
        else some (Message.mk message.startLine fields ((message.body ++ rest).take length),
          (message.body ++ rest).drop length)) = _
  rw [readField_lines h.fields]
  dsimp only
  rw [h.length]
  dsimp only
  rw [if_neg (by simp), List.take_left, List.drop_left]

/-- What was read stays as it is when more arrives. -/
theorem read_append {stream rest : Bytes} {message : Message}
    (h : read stream = some (message, rest)) (later : Bytes) :
    read (stream ++ later) = some (message, rest ++ later) := by
  unfold read at h ⊢
  split at h
  · cases h
  · cases h
  · rename_i startLine lines behind hlines
    rw [readLines_append hlines (by simp) later]
    dsimp only
    split at h
    · cases h
    · rename_i fields hfields
      split at h
      · cases h
      · rename_i length hlength
        split at h
        · cases h
        · rename_i henough
          have hle : length ≤ behind.length := Nat.le_of_not_lt henough
          obtain ⟨rfl, rfl⟩ := Prod.mk.inj (Option.some.inj h)
          rw [if_neg (by rw [List.length_append]; omega), List.take_append_of_le_length hle,
            List.drop_append_of_le_length hle]

/-- A proper front of a framed message does not read as a message. -/
theorem read_front {message : Message} (h : message.Framed) {front : Bytes}
    (hfront : front <+: message.text) (hne : front ≠ message.text) : read front = none := by
  cases hread : read front with
  | none => rfl
  | some result =>
    obtain ⟨other, rest⟩ := result
    obtain ⟨later, hlater⟩ := hfront
    have hmore := read_append hread later
    have hwhole := read_text h []
    rw [List.append_nil, ← hlater, hmore] at hwhole
    obtain ⟨-, hnil⟩ := Prod.mk.inj (Option.some.inj hwhole)
    rw [(List.append_eq_nil_iff.mp hnil).2, List.append_nil] at hlater
    exact absurd hlater hne

end LearnApue.Foundation.HttpMessage
