import LearnApue.Foundation.Decimal
import LearnApue.Gateway.ProgressLines

set_option autoImplicit false
set_option maxRecDepth 2048

/-!
# Gateway: the counters of a progress record (`progress_parser.c`)

`frame=` and `drop_frames=` lines go through `parse_u64`, which accepts what `strtoull` reads to
the end without an error.  A counter must change exactly for an unsigned decimal numeral below
`2^64`; what `strtoull` reads is more, and `progress_counter_line` says for which values the
counter is right, however the line is cut into calls.
-/

namespace LearnApue.Gateway

open LearnApue.Foundation

/-! ## Feeding a line -/

/-- The fragments of a stream, fed one call after the other until a call fails. -/
def ProgressBuffer.feed (strtod : Strtod) (buffer : ProgressBuffer) :
    List (Bytes × GwWorkerProgress) → ProgressBuffer × Except GwError Unit
  | [] => (buffer, .ok ())
  | (data, progress) :: calls =>
      match buffer.consume strtod data progress with
      | (call, .ok ()) => call.buffer.feed strtod calls
      | (call, .error error) => (call.buffer, .error error)

section Feeding

variable {strtod : Strtod}

/-- The loop takes one byte after the other. -/
theorem consumeProgress_append (front back : Bytes) (call : ProgressCall) :
    consumeProgress strtod call (front ++ back) =
      match consumeProgress strtod call front with
      | (call', .ok ()) => consumeProgress strtod call' back
      | (call', .error error) => (call', .error error) := by
  induction front generalizing call with
  | nil => rfl
  | cons b rest ih =>
    rw [List.cons_append, consumeProgress, consumeProgress]
    split
    · exact ih _
    · split
      · rfl
      · exact ih _

/-- What the caller's variables held makes no difference to the parser. -/
theorem consumeProgress_sameLine (data : Bytes) {call call' : ProgressCall}
    (h : call.parser = call'.parser) :
    (consumeProgress strtod call data).1.parser = (consumeProgress strtod call' data).1.parser ∧
      (consumeProgress strtod call data).2 = (consumeProgress strtod call' data).2 := by
  induction data generalizing call call' with
  | nil => exact ⟨h, rfl⟩
  | cons b rest ih =>
    unfold consumeProgress
    by_cases hb : b = newline
    · rw [if_pos hb, if_pos hb]
      exact ih (by simp only [ProgressCall.endLine, h])
    · rw [if_neg hb, if_neg hb]
      by_cases hfull : call.parser.line.length + 1 ≥ gwProgressLineCap
      · have hfull' : call'.parser.line.length + 1 ≥ gwProgressLineCap := h ▸ hfull
        rw [dif_pos hfull, dif_pos hfull']
        exact ⟨by simp only [h], rfl⟩
      · have hroom : ¬ call'.parser.line.length + 1 ≥ gwProgressLineCap := h ▸ hfull
        rw [dif_neg hfull, dif_neg hroom]
        exact ih (by simp only [h])

/-- Fragments do what their bytes do in one call. -/
theorem ProgressBuffer.feed_eq (calls : List (Bytes × GwWorkerProgress)) (buffer : ProgressBuffer)
    (progress : GwWorkerProgress) :
    (buffer.feed strtod calls).1.parser =
        (gwProgressParserConsume strtod buffer.parser (streamOf calls) progress).1.parser ∧
      (buffer.feed strtod calls).2 =
        (gwProgressParserConsume strtod buffer.parser (streamOf calls) progress).2 := by
  induction calls generalizing buffer with
  | nil => exact ⟨rfl, rfl⟩
  | cons call rest ih =>
    obtain ⟨data, held⟩ := call
    have hstream : streamOf ((data, held) :: rest) = data ++ streamOf rest := rfl
    have hcall := @consumeBuffer_call strtod data ⟨buffer, held, false⟩
    have hsame : (⟨buffer, held, false⟩ : BufferCall).call.parser =
        (⟨buffer.parser, progress, false⟩ : ProgressCall).parser := rfl
    have hother := @consumeProgress_sameLine strtod data _ _ hsame
    rw [← hcall] at hother
    rw [hstream, gwProgressParserConsume, consumeProgress_append, feed]
    unfold consume
    generalize consumeBuffer strtod ⟨buffer, held, false⟩ data = fed at hother
    generalize consumeProgress strtod ⟨buffer.parser, progress, false⟩ data = read at hother
    obtain ⟨fedCall, result⟩ := fed
    obtain ⟨readCall, result'⟩ := read
    obtain ⟨hparser, rfl⟩ := hother
    cases result with
    | error error => exact ⟨hparser, rfl⟩
    | ok done =>
      have hrest := ih fedCall.buffer
      have hread := @consumeProgress_sameLine strtod (streamOf rest)
        ⟨fedCall.buffer.parser, progress, false⟩ readCall hparser
      exact ⟨hrest.1.trans hread.1, hrest.2.trans hread.2⟩

/-- Bytes before the newline extend the line while it fits. -/
theorem consumeProgress_unended {text : Bytes} (htext : newline ∉ text) {call : ProgressCall}
    {parser : GwProgressParser} (hline : parser.line = call.parser.line ++ text)
    (hcurrent : parser.current = call.parser.current) :
    consumeProgress strtod call text = ({ call with parser := parser }, .ok ()) := by
  induction text generalizing call with
  | nil =>
    obtain ⟨⟨line, current, fits⟩, progress, completed⟩ := call
    obtain ⟨line', current', fits'⟩ := parser
    rw [List.append_nil] at hline
    dsimp only at hline hcurrent
    subst hline hcurrent
    rfl
  | cons b rest ih =>
    have hb : b ≠ newline := fun heq => htext (heq ▸ List.mem_cons_self)
    have hlength := congrArg List.length hline
    rw [List.length_append, List.length_cons] at hlength
    have hfits := parser.fits
    have hroom : ¬ call.parser.line.length + 1 ≥ gwProgressLineCap := by omega
    rw [consumeProgress, if_neg hb, dif_neg hroom]
    refine ih (fun hmem => htext (List.mem_cons_of_mem _ hmem)) ?_ hcurrent
    rw [hline, List.append_assoc]
    rfl

/-- A line that does not fit is refused before its newline. -/
theorem consumeProgress_tooLong {text : Bytes} (htext : newline ∉ text) {call : ProgressCall}
    (hlong : gwProgressLineCap ≤ (call.parser.line ++ text).length) :
    (consumeProgress strtod call text).2 = .error progressLineError ∧
      (consumeProgress strtod call text).1.parser.current = call.parser.current := by
  induction text generalizing call with
  | nil =>
    have hfits := call.parser.fits
    rw [List.append_nil] at hlong
    omega
  | cons b rest ih =>
    have hb : b ≠ newline := fun heq => htext (heq ▸ List.mem_cons_self)
    rw [consumeProgress, if_neg hb]
    split
    · exact ⟨rfl, rfl⟩
    · refine ih (fun hmem => htext (List.mem_cons_of_mem _ hmem)) ?_
      rw [List.append_assoc]
      exact hlong

/-- A whole line from its beginning, however it is cut into calls. -/
theorem ProgressBuffer.feed_line {buffer : ProgressBuffer} (hstart : buffer.lineLength = 0)
    {line : Bytes} (hline : newline ∉ line) {calls : List (Bytes × GwWorkerProgress)}
    (hcalls : streamOf calls = line ++ [newline]) :
    (line.length < gwProgressLineCap →
      (buffer.feed strtod calls).2 = .ok () ∧
        (buffer.feed strtod calls).1.current =
          (parseLine strtod buffer.current (progressLine line)).current) ∧
    (gwProgressLineCap ≤ line.length →
      (buffer.feed strtod calls).2 = .error progressLineError ∧
        (buffer.feed strtod calls).1.current = buffer.current) := by
  have hempty : buffer.parser.line = [] :=
    List.eq_nil_of_length_eq_zero (buffer.parser_length.trans hstart)
  obtain ⟨hparser, hresult⟩ := @feed_eq strtod calls buffer .zero
  have hcurrent : (buffer.feed strtod calls).1.current =
      (gwProgressParserConsume strtod buffer.parser (streamOf calls) .zero).1.parser.current :=
    congrArg GwProgressParser.current hparser
  rw [hresult, hcurrent, hcalls, gwProgressParserConsume, consumeProgress_append]
  refine ⟨fun hfits => ?_, fun hlong => ?_⟩
  · have hread := @consumeProgress_unended strtod line hline
      ⟨buffer.parser, .zero, false⟩ ⟨line, buffer.current, hfits⟩ (by rw [hempty]; rfl) rfl
    rw [hread]
    exact ⟨rfl, rfl⟩
  · have hrefused := @consumeProgress_tooLong strtod line hline
      ⟨buffer.parser, .zero, false⟩ (by rw [hempty]; exact hlong)
    generalize consumeProgress strtod ⟨buffer.parser, .zero, false⟩ line = read at hrefused
    obtain ⟨readCall, result⟩ := read
    obtain ⟨rfl, hkept⟩ := hrefused
    exact ⟨rfl, hkept⟩

end Feeding

/-! ## The counters -/

/-- The counters of a record. -/
inductive ProgressCounter where
  | frame
  | dropFrames
  deriving DecidableEq

/-- The key of a counter's lines. -/
def ProgressCounter.key : ProgressCounter → Bytes
  | .frame => ascii "frame"
  | .dropFrames => ascii "drop_frames"

/-- The counter in a record. -/
def ProgressCounter.get (counter : ProgressCounter) (record : GwWorkerProgress) : Nat :=
  match counter with
  | .frame => record.frame
  | .dropFrames => record.dropFrames

/-- A text without the carriage return before its newline. -/
def withoutReturn (text : Bytes) : Bytes :=
  if text.getLast? = some carriageReturn then text.dropLast else text

/-- The counter changes to the value of an unsigned decimal numeral below `2^64`, and for
nothing else. -/
def CounterMeets (value : Bytes) (before after : Nat) : Prop :=
  after = if IsNumeral value ∧ digitsValue 0 value < 2 ^ 64 then digitsValue 0 value else before

instance (value : Bytes) (before after : Nat) : Decidable (CounterMeets value before after) :=
  inferInstanceAs (Decidable (_ = _))

/-- What `strtoull` reads to the end in a value, up to a NUL, is the value and no more than
digits, or says what the counter holds already. -/
def CounterPlain (value : Bytes) (before : Nat) : Prop :=
  ∀ lead digits, cString value = lead ++ digits → IsLead lead → IsNumeral digits →
    digitsValue 0 digits < 2 ^ 64 →
      (lead = [] ∧ nul ∉ value) ∨ ledValue lead (digitsValue 0 digits) = before

section Counters

variable {strtod : Strtod} {counter : ProgressCounter} {value text : Bytes}

/-- `parse_u64` accepts what `strtoull` reads as a whole. -/
theorem parseU64_eq_some {n : Nat} :
    parseU64 value = some n ↔
      ∃ lead digits, value = lead ++ digits ∧ IsLead lead ∧ IsNumeral digits ∧
        digitsValue 0 digits < 2 ^ 64 ∧ n = ledValue lead (digitsValue 0 digits) := by
  have hparse : parseU64 value = some n ↔
      ∃ number : Int, strtoull value = ⟨number, [], true, false⟩ ∧ number.toNat = n := by
    unfold parseU64
    obtain ⟨number, rest, converted, erange⟩ := strtoull value
    cases converted <;> cases erange <;> simp
  rw [hparse]
  constructor
  · rintro ⟨number, hread, rfl⟩
    obtain ⟨lead, digits, htext, hlead, hdigits, hlt, hnumber⟩ := strtoull_eq_whole.mp hread
    exact ⟨lead, digits, htext, hlead, hdigits, hlt, by rw [hnumber, Int.toNat_natCast]⟩
  · rintro ⟨lead, digits, htext, hlead, hdigits, hlt, rfl⟩
    exact ⟨_, strtoull_eq_whole.mpr ⟨lead, digits, htext, hlead, hdigits, hlt, rfl⟩,
      Int.toNat_natCast _⟩

theorem parseU64_numeral (h : IsNumeral value) (hlt : digitsValue 0 value < 2 ^ 64) :
    parseU64 value = some (digitsValue 0 value) :=
  parseU64_eq_some.mpr ⟨[], value, rfl, isLead_nil, h, hlt, (ledValue_nil _).symm⟩

/-- The counter is right after a line exactly when its value is plain. -/
theorem counterMeets_iff {before : Nat} :
    CounterMeets value before ((parseU64 (cString value)).getD before) ↔
      CounterPlain value before := by
  have hnumeral : IsNumeral value → cString value = value := fun h =>
    cString_of_nul_notMem h.nul_notMem
  unfold CounterMeets
  constructor
  · intro hmeets lead digits htext hlead hdigits hlt
    have hparse : parseU64 (cString value) = some (ledValue lead (digitsValue 0 digits)) :=
      parseU64_eq_some.mpr ⟨lead, digits, htext, hlead, hdigits, hlt, rfl⟩
    rw [hparse, Option.getD_some] at hmeets
    split at hmeets
    · rename_i h
      have hdigitsOnly : ∀ b ∈ lead, isDigit b = true := by
        intro b hb
        refine h.1.2 b ?_
        rw [← hnumeral h.1, htext]
        exact List.mem_append_left digits hb
      exact .inl ⟨hlead.eq_nil hdigitsOnly, h.1.nul_notMem⟩
    · exact .inr hmeets
  · intro hplain
    split
    · rename_i h
      rw [hnumeral h.1, parseU64_numeral h.1 h.2, Option.getD_some]
    · rename_i h
      cases hparse : parseU64 (cString value) with
      | none => rfl
      | some n =>
        obtain ⟨lead, digits, htext, hlead, hdigits, hlt, rfl⟩ := parseU64_eq_some.mp hparse
        rcases hplain lead digits htext hlead hdigits hlt with ⟨rfl, hnul⟩ | hsame
        · rw [cString_of_nul_notMem hnul, List.nil_append] at htext
          rw [htext] at h
          exact absurd ⟨hdigits, hlt⟩ h
        · exact hsame

/-! ## Lines of a counter -/

theorem ProgressCounter.separator_notMem_key (counter : ProgressCounter) :
    byte '=' ∉ counter.key := by
  cases counter <;> decide

theorem ProgressCounter.newline_notMem_key (counter : ProgressCounter) :
    newline ∉ counter.key := by
  cases counter <;> decide

theorem ProgressCounter.nul_notMem_key (counter : ProgressCounter) : nul ∉ counter.key := by
  cases counter <;> decide

/-- The line of a counter that `parse_line` reads. -/
theorem ProgressCounter.progressLine_key (counter : ProgressCounter) (text : Bytes) :
    progressLine (counter.key ++ byte '=' :: text) =
      counter.key ++ byte '=' :: cString (withoutReturn text) := by
  have hread : ∀ value, cString (counter.key ++ byte '=' :: value) =
      counter.key ++ byte '=' :: cString value := by
    intro value
    have hkey : counter.key.takeWhile (fun b => b ≠ nul) = counter.key :=
      cString_of_nul_notMem counter.nul_notMem_key
    rw [cString, List.takeWhile_append, if_pos (by rw [hkey])]
    rfl
  rw [progressLine, withoutReturn, ← hread]
  congr 1
  cases text with
  | nil =>
    have hlast : (counter.key ++ [byte '=']).getLast? ≠ some carriageReturn := by
      rw [List.getLast?_concat]
      decide
    rw [if_neg hlast]
    rfl
  | cons b rest =>
    have hlast : (counter.key ++ byte '=' :: b :: rest).getLast? = (b :: rest).getLast? := by
      rw [List.getLast?_append, List.getLast?_cons_cons, List.getLast?_cons, Option.some_or]
    rw [hlast]
    split
    · rw [List.dropLast_append_cons]
      rfl
    · rfl

theorem ProgressCounter.parseLine_get (counter : ProgressCounter) (current : GwWorkerProgress)
    (value : Bytes) :
    counter.get (parseLine strtod current (counter.key ++ byte '=' :: value)).current =
      (parseU64 value).getD (counter.get current) := by
  have hmem : byte '=' ∈ counter.key ++ byte '=' :: value :=
    List.mem_append_right _ List.mem_cons_self
  have hkey : (counter.key ++ byte '=' :: value).takeWhile (fun b => b != byte '=') =
      counter.key := by
    rw [List.takeWhile_append_of_pos, List.takeWhile_cons_of_neg (by simp), List.append_nil]
    intro b hb
    exact bne_iff_ne.mpr fun heq => counter.separator_notMem_key (heq ▸ hb)
  have hvalue : (counter.key ++ byte '=' :: value).drop (counter.key.length + 1) = value := by
    simp
  rw [parseLine, if_neg (not_not_intro hmem), hkey]
  dsimp only
  rw [hvalue]
  cases counter with
  | frame => rfl
  | dropFrames => rfl

/-- For every value of a `frame` or `drop_frames` line, of any length and however the line is cut
into calls: a line that fits is read and its counter is right exactly when the value is plain; a
line that does not fit is refused and changes nothing. -/
theorem progress_counter_line (strtod : Strtod) (counter : ProgressCounter)
    {buffer : ProgressBuffer} (hstart : buffer.lineLength = 0) {text : Bytes}
    (htext : newline ∉ text) {calls : List (Bytes × GwWorkerProgress)}
    (hcalls : streamOf calls = counter.key ++ byte '=' :: text ++ [newline]) :
    ((counter.key ++ byte '=' :: text).length < gwProgressLineCap →
      (buffer.feed strtod calls).2 = .ok () ∧
        (CounterMeets (withoutReturn text) (counter.get buffer.current)
            (counter.get (buffer.feed strtod calls).1.current) ↔
          CounterPlain (withoutReturn text) (counter.get buffer.current))) ∧
    (gwProgressLineCap ≤ (counter.key ++ byte '=' :: text).length →
      (buffer.feed strtod calls).2 = .error progressLineError ∧
        (buffer.feed strtod calls).1.current = buffer.current) := by
  have hline : newline ∉ counter.key ++ byte '=' :: text := by
    intro hmem
    rcases List.mem_append.mp hmem with hkey | hrest
    · exact counter.newline_notMem_key hkey
    · rcases List.mem_cons.mp hrest with hseparator | hin
      · exact absurd hseparator (by decide)
      · exact htext hin
  obtain ⟨hfits, hlong⟩ := @ProgressBuffer.feed_line strtod buffer hstart _ hline calls hcalls
  refine ⟨fun hroom => ?_, hlong⟩
  obtain ⟨hok, hcurrent⟩ := hfits hroom
  refine ⟨hok, ?_⟩
  rw [hcurrent, counter.progressLine_key, counter.parseLine_get]
  exact counterMeets_iff

/-- A line that ends in a carriage return and is cut inside its key. -/
theorem progress_counter_line_cut_key :
    let calls := [(ascii "fra", GwWorkerProgress.zero), (ascii "me=12\r\n", .zero)]
    (ProgressBuffer.init.feed noNumber calls).2 = .ok () ∧
      (CounterMeets (ascii "12") 0
          (ProgressCounter.frame.get (ProgressBuffer.init.feed noNumber calls).1.current) ↔
        CounterPlain (ascii "12") 0) := by
  intro calls
  have hstream : streamOf calls =
      ProgressCounter.frame.key ++ byte '=' :: ascii "12\r" ++ [newline] := by decide
  have hstart : ProgressBuffer.init.lineLength = 0 := rfl
  have hline := progress_counter_line noNumber .frame hstart (by decide) hstream
  exact hline.1 (by decide)

/-- `frame=-1` makes the counter the largest number it can hold. -/
theorem progress_counter_line_counterexample :
    let calls := [(ascii "frame=-1\n", GwWorkerProgress.zero)]
    let after := ProgressCounter.frame.get (ProgressBuffer.init.feed noNumber calls).1.current
    after = 2 ^ 64 - 1 ∧ ¬ CounterMeets (ascii "-1") 0 after := by
  decide +kernel

end Counters

end LearnApue.Gateway
