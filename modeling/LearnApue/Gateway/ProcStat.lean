import LearnApue.Foundation.Decimal

set_option autoImplicit false

/-!
# Gateway: the CPU ticks of a process (`gw_process_metrics_parse_stat`)

`/proc/<pid>/stat` shows a process as `pid (comm) S f4 ... f13 utime stime ...`.
The command name is chosen by the process and can imitate the rest of the line,
so the parser starts behind the last `)`.  It reads ten signed fields, whose
values it drops, and the two tick counts.
-/

namespace LearnApue.Gateway

open LearnApue.Foundation

/-! ## The transcription -/

/-- `*end` is a space, a newline or the end of the text. -/
def atFieldEnd (rest : Bytes) : Bool :=
  match rest with
  | [] => true
  | b :: _ => b = byte ' ' || b = newline

/-- What the loop over the fields does with one of them: the value and the text
behind it. -/
def parseStatField (field : Nat) (text : Bytes) : Option (Int × Bytes) :=
  let cursor := text.dropWhile fun b => b = byte ' '
  match cursor with
  | [] => none
  | b :: _ =>
      if b = newline then none
      else if field ≥ 14 ∧ b = byte '-' then none
      else
        let parsed := if field < 14 then strtoll cursor else strtoull cursor
        if parsed.erange ∨ parsed.converted = false ∨ atFieldEnd parsed.rest = false then none
        else some (parsed.value, parsed.rest)

/-- The loop over the fields: `user_ticks` and `system_ticks` behind it. -/
def parseStatFields : List Nat → Bytes → Nat → Nat → Option (Nat × Nat)
  | [], _, userTicks, systemTicks => some (userTicks, systemTicks)
  | field :: fields, cursor, userTicks, systemTicks =>
      match parseStatField field cursor with
      | none => none
      | some (value, rest) =>
          if field < 14 then parseStatFields fields rest userTicks systemTicks
          else if field = 14 then parseStatFields fields rest value.toNat systemTicks
          else parseStatFields fields rest userTicks value.toNat

/-- `gw_process_metrics_parse_stat`: the result and `*cpu_ticks` behind it. -/
def gwProcessMetricsParseStat (text : Bytes) (cpuTicks : Nat) : Int × Nat :=
  match strrchr text (byte ')') with
  | some (space :: state :: gap :: cursor) =>
      if space ≠ byte ' ' ∨ state = nul ∨ gap ≠ byte ' ' then (-1, cpuTicks)
      else
        match parseStatFields (List.range' 4 12) cursor 0 0 with
        | none => (-1, cpuTicks)
        | some (userTicks, systemTicks) =>
            if 2 ^ 64 - 1 - userTicks < systemTicks then (-1, cpuTicks)
            else (0, userTicks + systemTicks)
  | _ => (-1, cpuTicks)

/-! ## The lines of the kernel -/

/-- What stands in front of the numeric fields: any command name, and a state,
which is a letter. -/
structure StatHead where
  pid : Int
  comm : Bytes
  state : Byte
  commNul : nul ∉ comm
  stateNul : state ≠ nul
  stateParen : state ≠ byte ')'

/-- Numeric fields as they are printed, each behind a space. -/
def printFields (fields : List Int) : Bytes :=
  fields.flatMap fun value => byte ' ' :: decimalInt value

/-- A line as it is printed, up to the last of these fields. -/
def statLine (head : StatHead) (fields : List Int) (ending : Bytes) : Bytes :=
  decimalInt head.pid ++ ascii " (" ++ head.comm ++ ascii ") " ++ [head.state] ++
    printFields fields ++ ending

/-- The same line when it ends behind its first fields. -/
def statLineFront (head : StatHead) (fields : List Int) (ending : Bytes) : Nat → Bytes
  | 0 => ending
  | 1 => decimalInt head.pid ++ ending
  | 2 => decimalInt head.pid ++ ascii " (" ++ head.comm ++ ascii ")" ++ ending
  | count + 3 => statLine head (fields.take count) ending

/-- A line ends with a newline or with the text. -/
def LineEnd (ending : Bytes) : Prop := ending = [] ∨ ending = [newline]

/-- Ten signed fields and everything behind them. -/
def statFields (signed : Fin 10 → Int64) (rest : List Int) : List Int :=
  List.ofFn (fun i => (signed i).toInt) ++ rest

/-! ## One field -/

theorem decimalInt_ne_nil (v : Int) : decimalInt v ≠ [] := by
  unfold decimalInt
  split
  · exact List.cons_ne_nil _ _
  · exact decimalNat_ne_nil _

/-- The first byte of a printed integer. -/
theorem head_decimalInt {v : Int} {b : Byte} {rest : Bytes} (h : decimalInt v = b :: rest) :
    (isDigit b = true ∧ 0 ≤ v) ∨ (b = byte '-' ∧ v < 0) := by
  unfold decimalInt at h
  split at h
  · rename_i hneg
    cases h
    exact Or.inr ⟨rfl, hneg⟩
  · rename_i hneg
    have hmem : b ∈ decimalNat v.natAbs := by
      rw [h]
      exact List.mem_cons_self
    exact Or.inl ⟨isDigit_of_mem_decimalNat hmem, not_lt.mp hneg⟩

/-- The fields behind a printed one. -/
theorem endsNumeral_of_atFieldEnd {rest : Bytes} (h : atFieldEnd rest = true) :
    EndsNumeral rest := by
  cases rest with
  | nil => exact endsNumeral_nil
  | cons b rest =>
    simp only [atFieldEnd, Bool.or_eq_true, decide_eq_true_eq] at h
    rcases h with rfl | rfl
    · exact endsNumeral_cons (by decide) rest
    · exact endsNumeral_cons (by decide) rest

theorem atFieldEnd_fields {ending : Bytes} (hending : LineEnd ending) (fields : List Int) :
    atFieldEnd (printFields fields ++ ending) = true := by
  cases fields with
  | nil => rcases hending with rfl | rfl <;> rfl
  | cons value fields => rfl

/-- A printed integer starts with none of the bytes that stop a field. -/
theorem head_decimalInt_ne {v : Int} {b : Byte} {rest : Bytes} (h : decimalInt v = b :: rest) :
    b ≠ byte ' ' ∧ b ≠ newline := by
  rcases head_decimalInt h with ⟨hdigit, -⟩ | ⟨rfl, -⟩
  · constructor
    · rintro rfl
      exact absurd hdigit (by decide)
    · rintro rfl
      exact absurd hdigit (by decide)
  · exact ⟨by decide, by decide⟩

/-- The space in front of a printed integer is skipped. -/
theorem skip_decimalInt (v : Int) (rest : Bytes) :
    (byte ' ' :: decimalInt v ++ rest).dropWhile (fun b => b = byte ' ') =
        decimalInt v ++ rest ∧
      (decimalInt v ++ rest).dropWhile (fun b => b = byte ' ') = decimalInt v ++ rest := by
  obtain ⟨b, more, hb⟩ := List.exists_cons_of_ne_nil (decimalInt_ne_nil v)
  have hkept : (decimalInt v ++ rest).dropWhile (fun b => b = byte ' ') = decimalInt v ++ rest := by
    rw [hb, List.cons_append]
    exact List.dropWhile_cons_of_neg (by simpa using (head_decimalInt_ne hb).1)
  refine ⟨?_, hkept⟩
  rw [List.cons_append, List.dropWhile_cons_of_pos (by decide), hkept]

/-- The values that the loop takes for a field: any signed one, or a tick count. -/
def FieldRange (field : Nat) (v : Int) : Prop :=
  if field < 14 then -2 ^ 63 ≤ v ∧ v < 2 ^ 63 else 0 ≤ v ∧ v < 2 ^ 64

/-- A printed field is read back. -/
theorem parseStatField_printed {field : Nat} {v : Int} {text rest : Bytes}
    (htext : text.dropWhile (fun b => b = byte ' ') = decimalInt v ++ rest)
    (hrest : atFieldEnd rest = true) (hrange : FieldRange field v) :
    parseStatField field text = some (v, rest) := by
  have hends := endsNumeral_of_atFieldEnd hrest
  obtain ⟨b, more, hb⟩ := List.exists_cons_of_ne_nil (decimalInt_ne_nil v)
  have hnewline := (head_decimalInt_ne hb).2
  have hminus : ¬ (field ≥ 14 ∧ b = byte '-') := by
    rintro ⟨hfield, rfl⟩
    rw [FieldRange, if_neg (not_lt.mpr hfield)] at hrange
    rcases head_decimalInt hb with ⟨hdigit, -⟩ | ⟨-, hneg⟩
    · exact absurd hdigit (by decide)
    · omega
  have hparsed : (if field < 14 then strtoll (decimalInt v ++ rest)
      else strtoull (decimalInt v ++ rest)) = ⟨v, rest, true, false⟩ := by
    unfold FieldRange at hrange
    split at hrange
    · exact (if_pos ‹_›).trans (strtoll_decimalInt hrange.1 hrange.2 hends)
    · obtain ⟨n, rfl⟩ := Int.eq_ofNat_of_zero_le hrange.1
      exact (if_neg ‹_›).trans (strtoull_decimalInt (by omega) hends)
  unfold parseStatField
  simp only [htext]
  rw [hb, List.cons_append] at hparsed ⊢
  simp only [hnewline, hminus, if_false, hparsed, hrest, Bool.true_eq_false, or_self,
    Bool.false_eq_true]

/-- A negative tick count is refused. -/
theorem parseStatField_negative {field : Nat} {v : Int} {text rest : Bytes}
    (htext : text.dropWhile (fun b => b = byte ' ') = decimalInt v ++ rest)
    (hfield : 14 ≤ field) (hneg : v < 0) : parseStatField field text = none := by
  obtain ⟨b, more, hb⟩ := List.exists_cons_of_ne_nil (decimalInt_ne_nil v)
  have hminus : b = byte '-' := by
    rcases head_decimalInt hb with ⟨-, hnonneg⟩ | ⟨hminus, -⟩
    · omega
    · exact hminus
  unfold parseStatField
  simp only [htext]
  rw [hb, List.cons_append]
  simp only [hminus, hfield, and_self, if_true, ite_self]

/-- Behind the last field there is no further one. -/
theorem parseStatField_ended {ending : Bytes} (hending : LineEnd ending) (field : Nat) :
    parseStatField field ending = none := by
  rcases hending with rfl | rfl
  · rfl
  · rfl

/-- A printed field is read to its end or not at all. -/
theorem parseStatField_rest {field : Nat} {v value : Int} {text rest after : Bytes}
    (htext : text.dropWhile (fun b => b = byte ' ') = decimalInt v ++ rest)
    (hrest : atFieldEnd rest = true) (h : parseStatField field text = some (value, after)) :
    after = rest := by
  have hends := endsNumeral_of_atFieldEnd hrest
  obtain ⟨b, more, hb⟩ := List.exists_cons_of_ne_nil (decimalInt_ne_nil v)
  have hparsed : (if field < 14 then strtoll (decimalInt v ++ rest)
      else strtoull (decimalInt v ++ rest)).rest = rest := by
    split
    · exact strtoll_decimalInt_rest hends v
    · exact strtoull_decimalInt_rest hends v
  unfold parseStatField at h
  simp only [htext] at h
  rw [hb, List.cons_append] at hparsed h
  simp only at h
  generalize (if field < 14 then strtoll (b :: (more ++ rest)) else
    strtoull (b :: (more ++ rest))) = parsed at hparsed h
  split at h
  · cases h
  · split at h
    · cases h
    · split at h
      · cases h
      · cases h
        exact hparsed

/-! ## The loop -/

theorem parseStatField_skip (field : Nat) (text : Bytes) :
    parseStatField field (byte ' ' :: text) = parseStatField field text := by
  unfold parseStatField
  rw [List.dropWhile_cons_of_pos (by decide)]

/-- The gap behind the state belongs to the first field. -/
theorem parseStatFields_skip (field : Nat) (fields : List Nat) (text : Bytes)
    (userTicks systemTicks : Nat) :
    parseStatFields (field :: fields) (byte ' ' :: text) userTicks systemTicks =
      parseStatFields (field :: fields) text userTicks systemTicks := by
  simp only [parseStatFields, parseStatField_skip]

theorem printFields_cons (value : Int) (fields : List Int) (ending : Bytes) :
    printFields (value :: fields) ++ ending =
      byte ' ' :: decimalInt value ++ (printFields fields ++ ending) := by
  simp only [printFields, List.flatMap_cons, List.append_assoc, List.cons_append]

/-- The signed fields are read and dropped. -/
theorem parseStatFields_signed {ending : Bytes} (hending : LineEnd ending) {signed : List Int}
    (hsigned : ∀ v ∈ signed, -2 ^ 63 ≤ v ∧ v < 2 ^ 63) (rest : List Int) {numbers : List Nat}
    (hlength : numbers.length = signed.length) (hnumbers : ∀ field ∈ numbers, field < 14)
    (more : List Nat) (userTicks systemTicks : Nat) :
    parseStatFields (numbers ++ more) (printFields (signed ++ rest) ++ ending) userTicks
        systemTicks =
      parseStatFields more (printFields rest ++ ending) userTicks systemTicks := by
  induction signed generalizing numbers with
  | nil =>
    rw [List.length_eq_zero_iff.mp hlength]
    rfl
  | cons v signed ih =>
    obtain ⟨field, numbers, rfl⟩ := List.exists_cons_of_length_eq_add_one hlength
    have hfield : field < 14 := hnumbers field List.mem_cons_self
    have hread : parseStatField field (printFields (v :: signed ++ rest) ++ ending) =
        some (v, printFields (signed ++ rest) ++ ending) := by
      rw [List.cons_append, printFields_cons]
      refine parseStatField_printed (skip_decimalInt v _).1 (atFieldEnd_fields hending _) ?_
      rw [FieldRange, if_pos hfield]
      exact hsigned v List.mem_cons_self
    rw [List.cons_append, parseStatFields, hread]
    simp only [hfield, if_true]
    exact ih (fun v hv => hsigned v (List.mem_cons_of_mem _ hv)) (by simpa using hlength)
      fun field hfield => hnumbers field (List.mem_cons_of_mem _ hfield)

/-- The tick counts are kept. -/
theorem parseStatFields_ticks {ending : Bytes} (hending : LineEnd ending) {utime stime : Nat}
    (hutime : utime < 2 ^ 64) (hstime : stime < 2 ^ 64) (further : List Int) :
    parseStatFields [14, 15] (printFields (utime :: stime :: further) ++ ending) 0 0 =
      some (utime, stime) := by
  have hread : ∀ {field : Nat} {v : Nat} (rest : List Int), ¬ field < 14 → v < 2 ^ 64 →
      parseStatField field (printFields (v :: rest) ++ ending) =
        some ((v : Int), printFields rest ++ ending) := by
    intro field v rest hfield hv
    rw [printFields_cons]
    refine parseStatField_printed (skip_decimalInt v _).1 (atFieldEnd_fields hending _) ?_
    rw [FieldRange, if_neg hfield]
    omega
  simp only [parseStatFields, hread _ (show ¬ 14 < 14 by omega) hutime,
    hread _ (show ¬ 15 < 14 by omega) hstime]
  rfl

/-- A field that cannot be read ends the loop, and so does one behind it. -/
theorem parseStatFields_none {field : Nat} {fields : List Nat} {cursor rest : Bytes}
    (hrest : ∀ value after, parseStatField field cursor = some (value, after) → after = rest)
    (h : ∀ userTicks systemTicks, parseStatFields fields rest userTicks systemTicks = none)
    (userTicks systemTicks : Nat) :
    parseStatFields (field :: fields) cursor userTicks systemTicks = none := by
  rw [parseStatFields]
  cases hread : parseStatField field cursor with
  | none => rfl
  | some read =>
    obtain ⟨value, after⟩ := read
    rw [hrest value after hread]
    simp only [h, ite_self]

/-- A line with too few fields is refused. -/
theorem parseStatFields_short {ending : Bytes} (hending : LineEnd ending) {fields : List Int}
    {numbers : List Nat} (h : fields.length < numbers.length) (userTicks systemTicks : Nat) :
    parseStatFields numbers (printFields fields ++ ending) userTicks systemTicks = none := by
  induction numbers generalizing fields userTicks systemTicks with
  | nil => cases h
  | cons number numbers ih =>
    cases fields with
    | nil =>
      have hended : parseStatField number (printFields [] ++ ending) = none :=
        parseStatField_ended hending number
      rw [parseStatFields, hended]
    | cons v fields =>
      refine parseStatFields_none (fun value after hread => ?_)
        (ih (by simpa using h)) userTicks systemTicks
      rw [printFields_cons] at hread
      exact parseStatField_rest (skip_decimalInt v _).1 (atFieldEnd_fields hending fields) hread

/-- So is one with a negative tick count. -/
theorem parseStatFields_negative {ending : Bytes} (hending : LineEnd ending) {utime stime : Int}
    (hneg : utime < 0 ∨ stime < 0) (further : List Int) :
    parseStatFields [14, 15] (printFields (utime :: stime :: further) ++ ending) 0 0 = none := by
  have hread : ∀ {field : Nat} {v : Int} (rest : List Int), 14 ≤ field → v < 0 →
      parseStatField field (printFields (v :: rest) ++ ending) = none := by
    intro field v rest hfield hv
    rw [printFields_cons]
    exact parseStatField_negative (skip_decimalInt v _).1 hfield hv
  by_cases hutime : utime < 0
  · rw [parseStatFields, hread _ (le_refl 14) hutime]
  · have hstime := hneg.resolve_left hutime
    have hafter : ∀ value after, parseStatField 14
        (printFields (utime :: stime :: further) ++ ending) = some (value, after) →
        after = printFields (stime :: further) ++ ending := by
      intro value after hfirst
      rw [printFields_cons] at hfirst
      exact parseStatField_rest (skip_decimalInt utime _).1 (atFieldEnd_fields hending _) hfirst
    refine parseStatFields_none hafter (fun userTicks systemTicks => ?_) 0 0
    rw [parseStatFields, hread _ (by omega) hstime]

/-! ## Whole lines -/

theorem paren_notMem_decimalInt (v : Int) : byte ')' ∉ decimalInt v := by
  unfold decimalInt
  split
  · rw [List.mem_cons, not_or]
    exact ⟨by decide, fun hmem => absurd (isDigit_of_mem_decimalNat hmem) (by decide)⟩
  · exact fun hmem => absurd (isDigit_of_mem_decimalNat hmem) (by decide)

theorem paren_notMem_ending {ending : Bytes} (hending : LineEnd ending) : byte ')' ∉ ending := by
  rcases hending with rfl | rfl
  · exact List.not_mem_nil
  · decide

theorem paren_notMem_printFields (fields : List Int) : byte ')' ∉ printFields fields := by
  unfold printFields
  rw [List.mem_flatMap]
  rintro ⟨value, -, hmem⟩
  rcases List.mem_cons.mp hmem with hspace | hdigits
  · exact absurd hspace (by decide)
  · exact paren_notMem_decimalInt value hdigits

/-- Whatever the command name is, the parser starts behind it. -/
theorem strrchr_statLine (head : StatHead) (fields : List Int) {ending : Bytes}
    (hending : LineEnd ending) :
    strrchr (statLine head fields ending) (byte ')') =
      some (byte ' ' :: head.state :: (printFields fields ++ ending)) := by
  have hline : statLine head fields ending = decimalInt head.pid ++ ascii " (" ++ head.comm ++
      byte ')' :: byte ' ' :: head.state :: (printFields fields ++ ending) := by
    have hclose : ascii ") " = [byte ')', byte ' '] := rfl
    simp only [statLine, hclose, List.append_assoc, List.cons_append, List.nil_append]
  rw [hline]
  refine strrchr_append ?_ _
  simp only [List.mem_cons, List.mem_append, not_or]
  exact ⟨by decide, Ne.symm head.stateParen, paren_notMem_printFields fields,
    paren_notMem_ending hending⟩

/-- A line with numeric fields is decided by the loop. -/
theorem gwProcessMetricsParseStat_fields (head : StatHead) {fields : List Int}
    (hfields : fields ≠ []) {ending : Bytes} (hending : LineEnd ending) (cpuTicks : Nat) :
    gwProcessMetricsParseStat (statLine head fields ending) cpuTicks =
      match parseStatFields (List.range' 4 12) (printFields fields ++ ending) 0 0 with
      | none => (-1, cpuTicks)
      | some (userTicks, systemTicks) =>
          if 2 ^ 64 - 1 - userTicks < systemTicks then (-1, cpuTicks)
          else (0, userTicks + systemTicks) := by
  obtain ⟨value, rest, rfl⟩ := List.exists_cons_of_ne_nil hfields
  have hgap : ¬ (byte ' ' ≠ byte ' ' ∨ head.state = nul ∨ byte ' ' ≠ byte ' ') := by
    rintro (hne | hnul | hne)
    · exact hne rfl
    · exact head.stateNul hnul
    · exact hne rfl
  have hrange : List.range' 4 12 = 4 :: List.range' 5 11 := rfl
  rw [gwProcessMetricsParseStat, strrchr_statLine head _ hending, printFields_cons]
  simp only [List.cons_append, if_neg hgap, hrange, parseStatFields_skip]

/-- A line that stops in front of its fifteenth field is refused. -/
theorem gwProcessMetricsParseStat_front (head : StatHead) (fields : List Int) {ending : Bytes}
    (hending : LineEnd ending) (cpuTicks : Nat) {count : Nat} (hcount : count < 15) :
    gwProcessMetricsParseStat (statLineFront head fields ending count) cpuTicks =
      (-1, cpuTicks) := by
  match count with
  | 0 =>
    rw [gwProcessMetricsParseStat, statLineFront, strrchr_of_notMem (paren_notMem_ending hending)]
  | 1 =>
    rw [gwProcessMetricsParseStat, statLineFront, strrchr_of_notMem]
    rw [List.mem_append, not_or]
    exact ⟨paren_notMem_decimalInt _, paren_notMem_ending hending⟩
  | 2 =>
    have hclose : ascii ")" ++ ending = byte ')' :: ending := rfl
    rw [gwProcessMetricsParseStat, statLineFront, List.append_assoc, hclose,
      strrchr_append (paren_notMem_ending hending)]
    rcases hending with rfl | rfl
    · rfl
    · rfl
  | count + 3 =>
    rw [statLineFront]
    by_cases hnil : fields.take count = []
    · rw [gwProcessMetricsParseStat, strrchr_statLine head _ hending, hnil]
      rcases hending with rfl | rfl
      · rfl
      · exact if_pos (Or.inr (Or.inr (by decide)))
    · have hlength : (fields.take count).length < (List.range' 4 12).length := by
        rw [List.length_take, List.length_range']
        omega
      rw [gwProcessMetricsParseStat_fields head hnil hending,
        parseStatFields_short hending hlength]

theorem statFields_loop (signed : Fin 10 → Int64) (rest : List Int) {ending : Bytes}
    (hending : LineEnd ending) :
    parseStatFields (List.range' 4 12) (printFields (statFields signed rest) ++ ending) 0 0 =
      parseStatFields [14, 15] (printFields rest ++ ending) 0 0 := by
  have hrange : List.range' 4 12 = List.range' 4 10 ++ [14, 15] := rfl
  rw [hrange]
  refine parseStatFields_signed hending (fun v hv => ?_) rest ?_ (fun field hfield => ?_) _ 0 0
  · obtain ⟨i, rfl⟩ := (List.mem_ofFn' _ v).mp hv
    exact ⟨(signed i).le_toInt, (signed i).toInt_lt⟩
  · rw [List.length_range', List.length_ofFn]
  · have hlt := (List.mem_range'_1.mp hfield).2
    omega

theorem statFields_ne_nil (signed : Fin 10 → Int64) (rest : List Int) :
    statFields signed rest ≠ [] := by
  intro h
  have hlength := congrArg List.length h
  rw [statFields, List.length_append, List.length_ofFn, List.length_nil] at hlength
  omega

/-- The parser inverts the format.  For every line that the kernel prints it gives
the sum of the two tick counts, or fails and leaves `*cpu_ticks` alone where the
sum is not below `2^64`; it fails for every line that ends in front of its
fifteenth field, and for every line with a negative tick count. -/
theorem gwProcessMetricsParseStat_statLine (head : StatHead) (signed : Fin 10 → Int64)
    {ending : Bytes} (hending : LineEnd ending) (cpuTicks : Nat) :
    (∀ (utime stime : UInt64) (further : List Int),
      gwProcessMetricsParseStat
          (statLine head (statFields signed (utime.toNat :: stime.toNat :: further)) ending)
          cpuTicks =
        if utime.toNat + stime.toNat < 2 ^ 64 then (0, utime.toNat + stime.toNat)
        else (-1, cpuTicks)) ∧
    (∀ (fields : List Int) (count : Nat), count < 15 →
      gwProcessMetricsParseStat (statLineFront head fields ending count) cpuTicks =
        (-1, cpuTicks)) ∧
    ∀ (utime stime : Int) (further : List Int), utime < 0 ∨ stime < 0 →
      gwProcessMetricsParseStat
          (statLine head (statFields signed (utime :: stime :: further)) ending) cpuTicks =
        (-1, cpuTicks) := by
  refine ⟨fun utime stime further => ?_, fun fields count hcount => ?_,
    fun utime stime further hneg => ?_⟩
  · have hutime := utime.toNat_lt
    have hstime := stime.toNat_lt
    rw [gwProcessMetricsParseStat_fields head (statFields_ne_nil signed _) hending,
      statFields_loop signed _ hending, parseStatFields_ticks hending hutime hstime]
    simp only
    split
    · rw [if_neg (by omega)]
    · rw [if_pos (by omega)]
  · exact gwProcessMetricsParseStat_front head fields hending cpuTicks hcount
  · rw [gwProcessMetricsParseStat_fields head (statFields_ne_nil signed _) hending,
      statFields_loop signed _ hending, parseStatFields_negative hending hneg]

/-- A command name with a parenthesis of its own. -/
def workerHead : StatHead :=
  ⟨123, ascii "gateway)worker", byte 'S', by decide, by decide, by decide⟩

theorem gwProcessMetricsParseStat_worker :
    gwProcessMetricsParseStat (statLine workerHead
        (statFields (fun i => Int64.ofNat (i + 1)) [7, 11, 0]) [newline]) 0 = (0, 18) ∧
      gwProcessMetricsParseStat (statLineFront workerHead [1, 2, 3] [] 6) 0 = (-1, 0) ∧
      gwProcessMetricsParseStat (statLine workerHead
        (statFields (fun i => Int64.ofNat (i + 1)) [-1, 30, 0]) [newline]) 0 = (-1, 0) := by
  have hworker := @gwProcessMetricsParseStat_statLine workerHead
    (fun i => Int64.ofNat (i + 1)) [newline] (Or.inr rfl) 0
  have hshort := @gwProcessMetricsParseStat_statLine workerHead (fun _ => 0) [] (Or.inl rfl) 0
  exact ⟨hworker.1 7 11 [0], hshort.2.1 [1, 2, 3] 6 (by decide),
    hworker.2.2 (-1) 30 [0] (Or.inl (by decide))⟩

end LearnApue.Gateway
