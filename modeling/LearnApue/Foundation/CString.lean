import Mathlib

set_option autoImplicit false

/-!
# C strings as byte lists

The text layer under every module: bytes, NUL-terminated strings, `char` arrays
of a fixed capacity, and the `<string.h>`, `<ctype.h>`, `<stdlib.h>` and
`<stdio.h>` functions the programs call.  A C string is the list of its bytes
before the terminating NUL.
-/

namespace LearnApue.Foundation

/-- One element of a C `char` array. -/
abbrev Byte : Type := UInt8

/-- A byte string. -/
abbrev Bytes : Type := List Byte

/-- The byte of an ASCII character. -/
def byte (c : Char) : Byte := UInt8.ofNat c.toNat

/-- The bytes of an ASCII literal. -/
def ascii (s : String) : Bytes := s.toList.map byte

/-- The bytes of a literal, which stands for the list of its characters. -/
theorem ascii_ofList (chars : List Char) : ascii (String.ofList chars) = chars.map byte := by
  rw [ascii, String.toList_ofList]

/-- The string terminator. -/
def nul : Byte := 0

/-- `'\n'`. -/
def newline : Byte := 10

/-- `'\r'`. -/
def carriageReturn : Byte := 13

/-- `ESRCH`. -/
def esrch : Nat := 3

/-- `EINTR`. -/
def eintr : Nat := 4

/-- `EAGAIN`, which is also `EWOULDBLOCK` on Linux. -/
def eagain : Nat := 11

/-- `EINVAL`. -/
def einval : Nat := 22

/-- `INT_MAX`. -/
def intMax : Int := 2147483647

/-- `UINT_MAX`. -/
def uintMax : Nat := 4294967295

/-- The C string at the front of a buffer: everything before the first NUL. -/
def cString (buffer : Bytes) : Bytes := buffer.takeWhile (fun b => b ≠ nul)

theorem nul_notMem_cString (buffer : Bytes) : nul ∉ cString buffer := by
  intro h
  simpa using List.mem_takeWhile_imp h

theorem cString_prefix_buffer (buffer : Bytes) : cString buffer <+: buffer :=
  List.takeWhile_prefix _

/-- A longer buffer shows a longer string. -/
theorem cString_prefix {front buffer : Bytes} (h : front <+: buffer) :
    cString front <+: cString buffer := by
  obtain ⟨rest, rfl⟩ := h
  unfold cString
  rw [List.takeWhile_append]
  split
  · rename_i hall
    rw [(List.takeWhile_prefix _).eq_of_length hall]
    exact List.prefix_append _ _
  · exact List.prefix_rfl

theorem cString_of_nul_notMem {buffer : Bytes} (h : nul ∉ buffer) :
    cString buffer = buffer := by
  refine List.takeWhile_eq_self_iff.mpr ?_
  intro b hb
  have hne : b ≠ nul := fun e => h (e ▸ hb)
  simpa using hne

/-! ## Fixed-capacity text -/

/-- The contents of a `char[capacity]` holding a NUL-terminated string: no NUL
inside, and room for the terminator. -/
structure Text (capacity : Nat) where
  bytes : Bytes
  noNul : nul ∉ bytes
  fits : bytes.length < capacity
  deriving DecidableEq

namespace Text

variable {capacity : Nat}

/-- The text holding `bytes`, where they form a string that fits. -/
def ofBytes? (capacity : Nat) (bytes : Bytes) : Option (Text capacity) :=
  if h : nul ∉ bytes ∧ bytes.length < capacity then some ⟨bytes, h.1, h.2⟩ else none

theorem ofBytes?_eq_some {bytes : Bytes} {text : Text capacity}
    (h : ofBytes? capacity bytes = some text) : text.bytes = bytes := by
  unfold ofBytes? at h
  split at h
  · exact (congrArg Text.bytes (Option.some.inj h)).symm
  · simp at h

theorem ext_bytes {first second : Text capacity} (h : first.bytes = second.bytes) :
    first = second := by
  cases first
  cases second
  simpa using h

end Text

/-- What a copy of a C string into a `char[capacity]` keeps, the terminator aside. -/
def Text.truncate (capacity : Nat) (h : 0 < capacity) (source : Bytes) : Text capacity where
  bytes := (cString source).take (capacity - 1)
  noNul := fun hmem => nul_notMem_cString source (List.mem_of_mem_take hmem)
  fits := by
    rw [List.length_take]
    omega

/-- What `strlen` and a copy into `capacity` bytes leave of `source`: the whole
string, or its first `capacity - 1` bytes. -/
def truncated (capacity : Nat) (source : Bytes) : Bytes :=
  source.take (capacity - 1)

/-! ## Searching -/

/-- `strstr`: the text before the first occurrence of `needle` and the text
after it. -/
def strstr (haystack needle : Bytes) : Option (Bytes × Bytes) :=
  haystack.dropInfix? needle

theorem strstr_eq_some_iff {haystack needle before after : Bytes} :
    strstr haystack needle = some (before, after) ↔
      haystack = before ++ needle ++ after ∧
        ∀ before' after', haystack = before' ++ needle ++ after' →
          before.length ≤ before'.length := by
  unfold strstr
  rw [List.dropInfix?_eq_some_iff]
  constructor
  · rintro ⟨⟨needle', happ, hbeq⟩, hfirst⟩
    have hneedle : needle' = needle := by simpa using hbeq
    subst hneedle
    exact ⟨happ, fun before' after' h => hfirst before' needle' after' h hbeq⟩
  · rintro ⟨happ, hfirst⟩
    refine ⟨⟨needle, happ, by simp⟩, ?_⟩
    intro before' needle' after' h hbeq
    have hneedle : needle' = needle := by simpa using hbeq
    subst hneedle
    exact hfirst before' after' h

/-- The text after the first occurrence of the needle does not matter. -/
theorem strstr_append {before needle : Bytes}
    (h : strstr (before ++ needle) needle = some (before, [])) (rest : Bytes) :
    strstr (before ++ needle ++ rest) needle = some (before, rest) := by
  refine strstr_eq_some_iff.mpr ⟨rfl, fun before' after' heq => ?_⟩
  by_contra hearlier
  have hlength : (before' ++ needle).length ≤ (before ++ needle).length := by
    rw [List.length_append, List.length_append]
    omega
  have hprefix : before' ++ needle <+: before ++ needle ++ rest :=
    heq ▸ List.prefix_append (before' ++ needle) after'
  obtain ⟨after'', hcut⟩ :=
    List.prefix_of_prefix_length_le hprefix (List.prefix_append _ rest) hlength
  exact hearlier ((strstr_eq_some_iff.mp h).2 before' after'' hcut.symm)

/-- What stands behind the first occurrence does not matter. -/
theorem strstr_rest {before needle rest : Bytes}
    (h : strstr (before ++ needle ++ rest) needle = some (before, rest)) (rest' : Bytes) :
    strstr (before ++ needle ++ rest') needle = some (before, rest') := by
  have hshort : strstr (before ++ needle) needle = some (before, []) := by
    refine strstr_eq_some_iff.mpr ⟨by simp, ?_⟩
    intro before' after' heq
    apply (strstr_eq_some_iff.mp h).2 before' (after' ++ rest)
    rw [heq]
    simp only [List.append_assoc]
  exact strstr_append hshort rest'

/-- A longer text has the same first occurrence. -/
theorem strstr_of_prefix {haystack longer needle before after : Bytes}
    (h : strstr haystack needle = some (before, after)) (hlonger : haystack <+: longer) :
    ∃ after', strstr longer needle = some (before, after') := by
  obtain ⟨rest, rfl⟩ := hlonger
  obtain ⟨rfl, -⟩ := strstr_eq_some_iff.mp h
  refine ⟨after ++ rest, ?_⟩
  rw [List.append_assoc]
  exact strstr_rest h (after ++ rest)

/-- `strrchr`: the text behind the last occurrence of a byte. -/
def strrchr : Bytes → Byte → Option Bytes
  | [], _ => none
  | first :: rest, b =>
      match strrchr rest b with
      | some after => some after
      | none => if first = b then some rest else none

theorem strrchr_of_notMem {text : Bytes} {b : Byte} (h : b ∉ text) : strrchr text b = none := by
  induction text with
  | nil => rfl
  | cons first rest ih =>
    rw [List.mem_cons, not_or] at h
    rw [strrchr, ih h.2]
    exact if_neg (Ne.symm h.1)

/-- What stands in front of the last occurrence does not matter. -/
theorem strrchr_append {after : Bytes} {b : Byte} (h : b ∉ after) (before : Bytes) :
    strrchr (before ++ b :: after) b = some after := by
  induction before with
  | nil =>
    rw [List.nil_append, strrchr, strrchr_of_notMem h]
    exact if_pos rfl
  | cons first rest ih => rw [List.cons_append, strrchr, ih]

/-- `strncmp(text, start, strlen(start)) == 0`. -/
def startsWith (text start : Bytes) : Bool := start.isPrefixOf text

theorem startsWith_iff {text start : Bytes} :
    startsWith text start = true ↔ start <+: text :=
  List.isPrefixOf_iff_prefix

/-! ## Character classes -/

/-- `isdigit` in the C locale. -/
def isDigit (b : Byte) : Bool := 48 ≤ b && b ≤ 57

/-- `isalnum` in the C locale. -/
def isAlnum (b : Byte) : Bool :=
  isDigit b || (65 ≤ b && b ≤ 90) || (97 ≤ b && b ≤ 122)

/-- `isspace` in the C locale. -/
def isSpace (b : Byte) : Bool := b == 32 || (9 ≤ b && b ≤ 13)

/-- The value of a hexadecimal digit. -/
def hexDigitValue (ch : Byte) : Option Nat :=
  if isDigit ch then some (ch.toNat - 48)
  else if 97 ≤ ch && ch ≤ 102 then some (ch.toNat - 87)
  else if 65 ≤ ch && ch ≤ 70 then some (ch.toNat - 55)
  else none

/-! ## Decimal output -/

/-- `%zu`, `%u` and `%llu`. -/
def decimalNat (n : Nat) : Bytes :=
  if n = 0 then [48] else (Nat.digits 10 n).reverse.map fun d => UInt8.ofNat (48 + d)

/-- `%d` and `%ld`. -/
def decimalInt (i : Int) : Bytes :=
  if i < 0 then byte '-' :: decimalNat i.natAbs else decimalNat i.natAbs

/-! ## Integer input -/

/-- What `strtol`, `strtoll` and `strtoull` report: the value, the unread rest
(`*end`), whether any digit was read (`end != value`) and whether `errno` was set
to `ERANGE`. -/
structure StrtoResult where
  value : Int
  rest : Bytes
  converted : Bool
  erange : Bool
  deriving DecidableEq

/-- The sign of a numeral and the text after it. -/
def readSign : Bytes → Bool × Bytes
  | [] => (false, [])
  | b :: rest =>
      if b = byte '-' then (true, rest)
      else if b = byte '+' then (false, rest)
      else (false, b :: rest)

/-- The value of a run of decimal digits read after `start`. -/
def digitsValue (start : Nat) (digits : Bytes) : Nat :=
  digits.foldl (fun value b => value * 10 + (b.toNat - 48)) start

/-- The part all base-10 conversions share: skip white space, read a sign, read
the longest run of digits. -/
def readNumeral (value : Bytes) : Bool × Bytes × Bytes :=
  let (negative, text) := readSign (value.dropWhile isSpace)
  (negative, text.takeWhile isDigit, text.dropWhile isDigit)

/-- `strtoll(value, &end, 10)` and, on an LP64 system, `strtol`: signed, clamped
at the ends of the 64-bit range. -/
def strtoll (value : Bytes) : StrtoResult :=
  let (negative, digits, rest) := readNumeral value
  if digits = [] then ⟨0, value, false, false⟩
  else
    let magnitude := digitsValue 0 digits
    if negative then
      if magnitude ≤ 2 ^ 63 then ⟨-(magnitude : Int), rest, true, false⟩
      else ⟨-(2 ^ 63), rest, true, true⟩
    else if magnitude < 2 ^ 63 then ⟨magnitude, rest, true, false⟩
    else ⟨2 ^ 63 - 1, rest, true, true⟩

/-- `strtoull(value, &end, 10)`: a minus sign negates modulo `2^64`; a magnitude
past the range gives `ULLONG_MAX`. -/
def strtoull (value : Bytes) : StrtoResult :=
  let (negative, digits, rest) := readNumeral value
  if digits = [] then ⟨0, value, false, false⟩
  else
    let magnitude := digitsValue 0 digits
    if magnitude < 2 ^ 64 then
      ⟨if negative then ((2 ^ 64 - magnitude) % 2 ^ 64 : Nat) else magnitude, rest, true, false⟩
    else ⟨2 ^ 64 - 1, rest, true, true⟩

end LearnApue.Foundation
