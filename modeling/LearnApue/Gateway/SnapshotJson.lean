import LearnApue.Foundation.Json
import LearnApue.Gateway.HttpResponse

set_option autoImplicit false
set_option maxRecDepth 2048

/-!
# Gateway: the JSON of a snapshot (`json_snapshot` and its callees in `http_server.c`)

`json_snapshot` writes `snapshotText`, which is an object of JSON in printable ASCII
whose value is `snapshotValue` (`jsonSnapshot_decodes`).
-/

namespace LearnApue.Gateway

open LearnApue.Foundation LearnApue.Foundation.BoundedWriter

/-! ## Texts -/

/-- The text of a string. -/
def stringText (value : Bytes) : Bytes := Json.quote :: value.flatMap jsonCharacter ++ [Json.quote]

/-- The text of a number, or `null`. -/
def doubleText : CDouble → Bytes
  | .finite value => decimalThousandths value.negative value.magnitude
  | .infinite _ | .nan => ascii "null"

/-- A key and the text of its value. -/
def memberText (member : Bytes × Bytes) : Bytes :=
  Json.quote :: member.1 ++ [Json.quote, Json.colon] ++ member.2

/-- An object with these members. -/
def objectText (members : List (Bytes × Bytes)) : Bytes :=
  byte '\x7b' :: Json.joined (members.map memberText) ++ [byte '\x7d']

/-- The text of a progress record. -/
def progressText (progress : GwWorkerProgress) : Bytes :=
  objectText
    [(ascii "frame", decimalNat progress.frame),
      (ascii "fps", doubleText progress.fps),
      (ascii "bitrate", stringText progress.bitrate.bytes),
      (ascii "out_time_us", decimalInt progress.outTimeUs),
      (ascii "drop_frames", decimalNat progress.dropFrames),
      (ascii "speed", doubleText progress.speed),
      (ascii "status", stringText progress.status.bytes)]

/-- The text of a snapshot. -/
def snapshotText (snapshot : GwChannelSnapshot) : Bytes :=
  objectText
    [(ascii "id", stringText snapshot.channelId.bytes),
      (ascii "state", stringText (gwChannelStateString snapshot.state)),
      (ascii "last_event", stringText snapshot.lastEvent.bytes),
      (ascii "process",
        objectText
          [(ascii "kind", stringText (gwChannelProcessKindString snapshot.processKind)),
            (ascii "pid", decimalInt snapshot.processPid)]),
      (ascii "consecutive_failures", decimalNat snapshot.consecutiveFailures),
      (ascii "total_restarts", decimalNat snapshot.totalRestarts),
      (ascii "configuration_generation", decimalNat snapshot.configurationGeneration),
      (ascii "backoff_sec", decimalInt snapshot.backoffSec),
      (ascii "last_exit_code",
        if snapshot.hasExitCode then decimalInt snapshot.lastExitCode else ascii "null"),
      (ascii "progress",
        if snapshot.hasProgress then progressText snapshot.progress else ascii "null")]

section Writes

theorem jsonAppend_writes (text : Bytes) : Writes text (jsonAppend text) := writes_append text

theorem jsonCharacters_writes (value : Bytes) :
    Writes (value.flatMap jsonCharacter) (jsonCharacters value) := by
  induction value with
  | nil => exact writes_nothing
  | cons b rest ih =>
    have hrest := (jsonAppend_writes (jsonCharacter b)).andThen ih
    intro writer hsound
    unfold jsonCharacters
    cases hfailed : writer.failed with
    | true =>
      rw [if_pos rfl]
      exact ⟨rfl, by simp [hfailed], by simp [hfailed]⟩
    | false =>
      rw [if_neg Bool.false_ne_true]
      exact hrest writer hsound

theorem jsonString_writes (value : Bytes) : Writes (stringText value) (jsonString value) := by
  have h := ((jsonAppend_writes (ascii "\"")).andThen (jsonCharacters_writes value)).andThen
    (jsonAppend_writes (ascii "\""))
  exact h

theorem jsonDouble_writes (value : CDouble) : Writes (doubleText value) (jsonDouble value) := by
  cases value with
  | finite value => exact jsonAppend_writes _
  | infinite negative => exact jsonAppend_writes _
  | nan => exact jsonAppend_writes _

theorem jsonProgress_writes (progress : GwWorkerProgress) :
    Writes (progressText progress) (jsonProgress progress) := by
  have h : Writes _ (jsonProgress progress) := jsonAppend_writes _
    |>.andThen (jsonDouble_writes _)
    |>.andThen (jsonAppend_writes _)
    |>.andThen (jsonString_writes _)
    |>.andThen (jsonAppend_writes _)
    |>.andThen (jsonDouble_writes _)
    |>.andThen (jsonAppend_writes _)
    |>.andThen (jsonString_writes _)
    |>.andThen (jsonAppend_writes _)
  refine h.of_eq ?_
  simp [progressText, objectText, memberText, Json.joined, ascii, byte, Json.quote, Json.colon,
    Json.comma]

theorem jsonSnapshot_writes (snapshot : GwChannelSnapshot) :
    Writes (snapshotText snapshot) (jsonSnapshot snapshot) := by
  have h : Writes _ (jsonSnapshot snapshot) := jsonAppend_writes _
    |>.andThen (jsonString_writes _)
    |>.andThen (jsonAppend_writes _)
    |>.andThen (jsonString_writes _)
    |>.andThen (jsonAppend_writes _)
    |>.andThen (jsonString_writes _)
    |>.andThen (jsonAppend_writes _)
    |>.andThen (jsonString_writes _)
    |>.andThen (jsonAppend_writes _)
    |>.andThen (writes_ite (jsonAppend_writes _) (jsonAppend_writes _))
    |>.andThen (jsonAppend_writes _)
    |>.andThen (writes_ite (jsonProgress_writes _) (jsonAppend_writes _))
    |>.andThen (jsonAppend_writes _)
  refine h.of_eq ?_
  simp [snapshotText, objectText, memberText, Json.joined, ascii, byte, Json.quote, Json.colon,
    Json.comma]

end Writes

/-! ## Values -/

/-- The code units of a byte string: each byte is the code of the same number. -/
def codes (value : Bytes) : List Nat := value.map UInt8.toNat

/-- A JSON string. -/
def stringValue (value : Bytes) : Json := .string (codes value)

/-- A finite number rounded to thousandths, or `null`. -/
def doubleValue : CDouble → Json
  | .finite value =>
      .number ((if value.negative then -1 else 1) *
        (roundHalfEven (value.magnitude * 1000) : ℚ) / 1000)
  | .infinite _ | .nan => .null

/-- A JSON object. -/
def objectValue (members : List (Bytes × Json)) : Json :=
  .object (members.map fun member => (codes member.1, member.2))

/-- The value of a progress record. -/
def progressValue (progress : GwWorkerProgress) : Json :=
  objectValue
    [(ascii "frame", .number progress.frame),
      (ascii "fps", doubleValue progress.fps),
      (ascii "bitrate", stringValue progress.bitrate.bytes),
      (ascii "out_time_us", .number progress.outTimeUs),
      (ascii "drop_frames", .number progress.dropFrames),
      (ascii "speed", doubleValue progress.speed),
      (ascii "status", stringValue progress.status.bytes)]

/-- The value of a snapshot. -/
def snapshotValue (snapshot : GwChannelSnapshot) : Json :=
  objectValue
    [(ascii "id", stringValue snapshot.channelId.bytes),
      (ascii "state", stringValue (gwChannelStateString snapshot.state)),
      (ascii "last_event", stringValue snapshot.lastEvent.bytes),
      (ascii "process",
        objectValue
          [(ascii "kind", stringValue (gwChannelProcessKindString snapshot.processKind)),
            (ascii "pid", .number snapshot.processPid)]),
      (ascii "consecutive_failures", .number snapshot.consecutiveFailures),
      (ascii "total_restarts", .number snapshot.totalRestarts),
      (ascii "configuration_generation", .number snapshot.configurationGeneration),
      (ascii "backoff_sec", .number snapshot.backoffSec),
      (ascii "last_exit_code",
        if snapshot.hasExitCode then .number snapshot.lastExitCode else .null),
      (ascii "progress", if snapshot.hasProgress then progressValue snapshot.progress else .null)]

/-! ## Printable texts -/

/-- Only printable ASCII. -/
def Printable (text : Bytes) : Prop := ∀ b ∈ text, 32 ≤ b ∧ b < 128

section Printable

variable {text text' : Bytes}

theorem printable_all (h : text.all (fun b => decide (32 ≤ b ∧ b < 128)) = true) :
    Printable text := by
  intro b hb
  simpa using List.all_eq_true.mp h b hb

theorem Printable.append (h : Printable text) (h' : Printable text') : Printable (text ++ text') := by
  intro b hb
  exact (List.mem_append.mp hb).elim (h b) (h' b)

theorem printable_digits (h : ∀ b ∈ text, isDigit b = true) : Printable text := by
  intro b hb
  have hdigit := h b hb
  simp only [isDigit, Bool.and_eq_true, decide_eq_true_eq] at hdigit
  exact ⟨UInt8.le_trans (by decide) hdigit.1, UInt8.lt_of_le_of_lt hdigit.2 (by decide)⟩

theorem printable_decimalNat (n : Nat) : Printable (decimalNat n) :=
  printable_digits fun _ => isDigit_of_mem_decimalNat

theorem printable_decimalInt (i : Int) : Printable (decimalInt i) := by
  unfold decimalInt
  split
  · exact (printable_all (by decide) : Printable [byte '-']).append (printable_decimalNat _)
  · exact printable_decimalNat _

theorem printable_null : Printable (ascii "null") := printable_all (by decide)

theorem printable_plain (h : text.all Json.plainByte = true) : Printable text := by
  intro b hb
  have hplain := List.all_eq_true.mp h b hb
  simp only [Json.plainByte, Bool.and_eq_true, decide_eq_true_eq] at hplain
  exact hplain.1.1

theorem printable_doubleText (value : CDouble) : Printable (doubleText value) := by
  cases value with
  | finite value =>
    have hsign : Printable (if value.negative then [byte '-'] else []) := by
      cases value.negative <;> exact printable_all (by decide)
    have hpoint : Printable [byte '.'] := printable_all (by decide)
    exact (hsign.append (printable_decimalNat _)).append
      (hpoint.append (printable_digits (threeDigits_digits _)))
  | infinite negative => exact printable_null
  | nan => exact printable_null

theorem printable_jsonCharacter (b : Byte) : Printable (jsonCharacter b) := by
  have hall : ∀ n < 256, (jsonCharacter (UInt8.ofNat n)).all
      (fun b => decide (32 ≤ b ∧ b < 128)) = true := by decide +kernel
  have hb := hall b.toNat b.toNat_lt
  rw [UInt8.ofNat_toNat] at hb
  exact printable_all hb

theorem printable_stringText (value : Bytes) : Printable (stringText value) := by
  have hquote : Printable [Json.quote] := printable_all (by decide)
  have hvalue : Printable (value.flatMap jsonCharacter) := by
    intro b hb
    obtain ⟨source, -, hsource⟩ := List.mem_flatMap.mp hb
    exact printable_jsonCharacter source b hsource
  exact (hquote.append hvalue).append hquote

theorem printable_joined {texts : List Bytes} (h : ∀ text ∈ texts, Printable text) :
    Printable (Json.joined texts) := by
  induction texts with
  | nil => exact printable_all (by decide)
  | cons head rest ih =>
    have hhead := h head List.mem_cons_self
    have hrest := ih fun text htext => h text (List.mem_cons_of_mem _ htext)
    cases rest with
    | nil => exact hhead
    | cons next texts =>
      have hcomma : Printable [Json.comma] := printable_all (by decide)
      exact hhead.append (hcomma.append hrest)

end Printable

/-! ## Decoding -/

section Encodes

open Json

theorem hexDigitValue_hexDigit {value : Nat} (h : value < 16) :
    hexDigitValue (hexDigit value) = some value := by
  have hall : ∀ value < 16, hexDigitValue (hexDigit value) = some value := by decide
  exact hall value h

/-- The bytes with an escape of one letter. -/
def letterEscaped : Bytes :=
  [byte '"', byte '\\', 8, 12, newline, carriageReturn, 9]

theorem jsonCharacter_letter : ∀ b ∈ letterEscaped, ∃ letter,
    jsonCharacter b = [backslash, letter] ∧ escapeCode letter = some b.toNat := by
  have h : ∀ b ∈ letterEscaped,
      jsonCharacter b = [backslash, (jsonCharacter b).getLastD 0] ∧
        escapeCode ((jsonCharacter b).getLastD 0) = some b.toNat := by decide
  exact fun b hb => ⟨_, h b hb⟩

theorem jsonCharacter_other {b : Byte} (h : b ∉ letterEscaped) :
    jsonCharacter b = if b < 32 ∨ b ≥ 128 then unicodeEscape b else [b] := by
  simp only [letterEscaped, List.mem_cons, List.not_mem_nil, or_false, not_or] at h
  obtain ⟨hquote, hbackslash, hbackspace, hfeed, hline, hreturn, htab⟩ := h
  rw [jsonCharacter, if_neg hquote, if_neg hbackslash, if_neg hbackspace, if_neg hfeed,
    if_neg hline, if_neg hreturn, if_neg htab]

/-- The escape of a byte is read as the byte. -/
theorem spells_jsonCharacter (b : Byte) : Spells (jsonCharacter b) [b.toNat] := by
  by_cases hletter : b ∈ letterEscaped
  · obtain ⟨letter, htext, hcode⟩ := jsonCharacter_letter b hletter
    rw [htext]
    exact spells_escape hcode
  rw [jsonCharacter_other hletter]
  by_cases hrange : b < 32 ∨ b ≥ 128
  · have hhigh : b.toNat / 16 < 16 := by
      have hbyte := b.toNat_lt
      omega
    have hlow : b.toNat % 16 < 16 := Nat.mod_lt _ (by decide)
    have h := @spells_unicode 48 48 _ _ 0 0 _ _ (by decide) (by decide)
      (hexDigitValue_hexDigit hhigh) (hexDigitValue_hexDigit hlow)
    have hvalue : ((0 * 16 + 0) * 16 + b.toNat / 16) * 16 + b.toNat % 16 = b.toNat := by omega
    rw [hvalue] at h
    rw [if_pos hrange]
    exact h
  · rw [if_neg hrange]
    obtain ⟨hlow, hhigh⟩ := not_or.mp hrange
    have hquote : b ≠ quote := fun heq => hletter (heq ▸ by decide)
    have hbackslash : b ≠ backslash := fun heq => hletter (heq ▸ by decide)
    refine spells_plain ?_
    simp [plainByte, UInt8.not_lt.mp hlow, UInt8.not_le.mp hhigh, hquote, hbackslash]

/-- A text in which every byte stands for itself. -/
theorem spells_codes {text : Bytes} (h : text.all plainByte = true) : Spells text (codes text) := by
  have hspells := @spells_flatMap Byte (fun b => [b]) UInt8.toNat text
    fun b hb => spells_plain (List.all_eq_true.mp h b hb)
  rwa [List.flatMap_singleton'] at hspells

theorem reads_stringText (value : Bytes) : Reads (stringText value) (stringValue value) :=
  reads_string (spells_flatMap fun b _ => spells_jsonCharacter b)

theorem reads_doubleText (value : CDouble) : Reads (doubleText value) (doubleValue value) := by
  cases value with
  | finite value =>
    let thousandths := roundHalfEven (value.magnitude * 1000)
    have h := reads_number value.negative (thousandths / 1000) (threeDigits_digits thousandths)
    have hsplit : (thousandths : ℚ) = 1000 * (thousandths / 1000 : Nat) + (thousandths % 1000 : Nat) := by
      exact_mod_cast (Nat.div_add_mod thousandths 1000).symm
    have hvalue : numberValue value.negative (thousandths / 1000) (threeDigits thousandths) 0 =
        (if value.negative then -1 else 1) * (thousandths : ℚ) / 1000 := by
      rw [numberValue, digitsValue_threeDigits, hsplit]
      have hlength : (threeDigits thousandths).length = 3 := rfl
      rw [hlength]
      ring
    rw [hvalue] at h
    exact h
  | infinite negative => exact reads_null
  | nan => exact reads_null

/-- A printable text that is read as a value. -/
structure Encodes (text : Bytes) (value : Json) : Prop where
  printable : Printable text
  reads : Reads text value

theorem encodes_null : Encodes (ascii "null") .null := ⟨printable_null, reads_null⟩

theorem encodes_nat (n : Nat) : Encodes (decimalNat n) (.number n) :=
  ⟨printable_decimalNat n, reads_nat n⟩

theorem encodes_int (i : Int) : Encodes (decimalInt i) (.number i) :=
  ⟨printable_decimalInt i, reads_int i⟩

theorem encodes_stringText (value : Bytes) : Encodes (stringText value) (stringValue value) :=
  ⟨printable_stringText value, reads_stringText value⟩

theorem encodes_doubleText (value : CDouble) : Encodes (doubleText value) (doubleValue value) :=
  ⟨printable_doubleText value, reads_doubleText value⟩

/-- A key that stands for itself, with the text and the value of the member. -/
inductive EncodesMember : Bytes × Bytes → Bytes × Json → Prop
  | member {key text : Bytes} {value : Json} (plain : key.all plainByte = true)
      (encodes : Encodes text value) : EncodesMember (key, text) (key, value)

theorem EncodesMember.printable {member : Bytes × Bytes} {value : Bytes × Json}
    (h : EncodesMember member value) : Printable (memberText member) := by
  obtain ⟨hkey, hvalue⟩ := h
  have hquote : Printable [quote] := printable_all (by decide)
  have hcolon : Printable [quote, colon] := printable_all (by decide)
  exact ((hquote.append (printable_plain hkey)).append hcolon).append hvalue.printable

theorem printable_members {members : List (Bytes × Bytes)} {values : List (Bytes × Json)}
    (h : List.Forall₂ EncodesMember members values) :
    ∀ member ∈ members, Printable (memberText member) := by
  induction h with
  | nil => simp
  | cons hhead _ ih => exact List.forall_mem_cons.mpr ⟨hhead.printable, ih⟩

theorem encodes_objectText {members : List (Bytes × Bytes)} {values : List (Bytes × Json)}
    (h : List.Forall₂ EncodesMember members values) (hsome : members ≠ []) :
    Encodes (objectText members) (objectValue values) := by
  have hopen : Printable [byte '\x7b'] := printable_all (by decide)
  have hclose : Printable [byte '\x7d'] := printable_all (by decide)
  constructor
  · refine (hopen.append (printable_joined ?_)).append hclose
    intro text htext
    obtain ⟨member, hmember, rfl⟩ := List.mem_map.mp htext
    exact printable_members h member hmember
  · refine reads_object ?_ (by simpa using hsome)
    rw [List.forall₂_map_left_iff, List.forall₂_map_right_iff]
    refine h.imp ?_
    rintro _ _ ⟨hkey, hvalue⟩
    exact .member (spells_codes hkey) hvalue.reads

theorem encodes_progressText (progress : GwWorkerProgress) :
    Encodes (progressText progress) (progressValue progress) := by
  refine encodes_objectText ?_ (by simp)
  exact .cons ⟨by decide, encodes_nat _⟩ <| .cons ⟨by decide, encodes_doubleText _⟩ <|
    .cons ⟨by decide, encodes_stringText _⟩ <| .cons ⟨by decide, encodes_int _⟩ <|
    .cons ⟨by decide, encodes_nat _⟩ <| .cons ⟨by decide, encodes_doubleText _⟩ <|
    .cons ⟨by decide, encodes_stringText _⟩ .nil

theorem encodes_snapshotText (snapshot : GwChannelSnapshot) :
    Encodes (snapshotText snapshot) (snapshotValue snapshot) := by
  have hprocess : Encodes
      (objectText [(ascii "kind", stringText (gwChannelProcessKindString snapshot.processKind)),
        (ascii "pid", decimalInt snapshot.processPid)])
      (objectValue [(ascii "kind", stringValue (gwChannelProcessKindString snapshot.processKind)),
        (ascii "pid", .number snapshot.processPid)]) := by
    refine encodes_objectText ?_ (by simp)
    exact .cons ⟨by decide, encodes_stringText _⟩ <| .cons ⟨by decide, encodes_int _⟩ .nil
  have hexit : Encodes
      (if snapshot.hasExitCode then decimalInt snapshot.lastExitCode else ascii "null")
      (if snapshot.hasExitCode then .number snapshot.lastExitCode else .null) := by
    split
    · exact encodes_int _
    · exact encodes_null
  have hprogress : Encodes
      (if snapshot.hasProgress then progressText snapshot.progress else ascii "null")
      (if snapshot.hasProgress then progressValue snapshot.progress else .null) := by
    split
    · exact encodes_progressText _
    · exact encodes_null
  refine encodes_objectText ?_ (by simp)
  exact .cons ⟨by decide, encodes_stringText _⟩ <| .cons ⟨by decide, encodes_stringText _⟩ <|
    .cons ⟨by decide, encodes_stringText _⟩ <| .cons ⟨by decide, hprocess⟩ <|
    .cons ⟨by decide, encodes_nat _⟩ <| .cons ⟨by decide, encodes_nat _⟩ <|
    .cons ⟨by decide, encodes_nat _⟩ <| .cons ⟨by decide, encodes_int _⟩ <|
    .cons ⟨by decide, hexit⟩ <| .cons ⟨by decide, hprogress⟩ .nil

end Encodes

/-- Where it fits, `json_snapshot` appends a text in printable ASCII that decodes to the value
of the snapshot. -/
theorem jsonSnapshot_decodes (snapshot : GwChannelSnapshot) :
    ∃ text : Bytes,
      (∀ writer : BoundedWriter, writer.failed = false →
        writer.length + text.length < writer.capacity →
        (jsonSnapshot snapshot writer).failed = false ∧
          (jsonSnapshot snapshot writer).data = writer.data ++ text) ∧
      (∀ b ∈ text, 32 ≤ b ∧ b < 128) ∧
      Json.decode text = some (snapshotValue snapshot) := by
  have hencodes := encodes_snapshotText snapshot
  refine ⟨snapshotText snapshot, ?_, hencodes.printable, ?_⟩
  · intro writer hok hroom
    have hwrote := jsonSnapshot_writes snapshot writer fun _ => by omega
    have hfailed : (jsonSnapshot snapshot writer).failed = false := by
      rw [← Bool.not_eq_true, hwrote.failed, hok]
      rintro (hnever | hfull)
      · cases hnever
      · omega
    exact ⟨hfailed, (hwrote.written hfailed).1⟩
  · have hdecode := @Json.Reads.decode _ _ hencodes.reads [] rfl
    rwa [List.append_nil] at hdecode

end LearnApue.Gateway
