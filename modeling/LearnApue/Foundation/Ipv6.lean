import Mathlib

set_option autoImplicit false

/-!
# IPv6 addresses as text

The IPv6 parser and the IPv6 serializer of the URL standard.  An address has eight
pieces of 16 bits.  The parser takes `::` for one zero piece or more, and a dotted quad
for the last two; the serializer writes the longest run of zeros as `::`.  What is
serialized is parsed back.

A text is the list of its code points.
-/

namespace LearnApue.Foundation.Ipv6

/-- The code points of a text. -/
abbrev CodePoints : Type := List Nat

/-- The code points of a literal. -/
def points (s : String) : CodePoints := s.toList.map Char.toNat

theorem points_ofList (chars : List Char) :
    points (String.ofList chars) = chars.map Char.toNat := by
  rw [points, String.toList_ofList]

/-! ## The parser -/

/-- The value of an ASCII digit. -/
def digitValue? (c : Nat) : Option Nat := if 48 ≤ c ∧ c ≤ 57 then some (c - 48) else none

/-- The value of an ASCII hex digit. -/
def hexValue? (c : Nat) : Option Nat :=
  if 48 ≤ c ∧ c ≤ 57 then some (c - 48)
  else if 97 ≤ c ∧ c ≤ 102 then some (c - 87)
  else if 65 ≤ c ∧ c ≤ 70 then some (c - 55)
  else none

/-- The numbers of a dotted quad: those before the point, and the one being read. -/
def ipv4Numbers (numbers : List Nat) (current : Option Nat) : CodePoints → Option (List Nat)
  | [] =>
      match current with
      | some number => if numbers.length = 3 then some (numbers ++ [number]) else none
      | none => none
  | c :: rest =>
      match current, digitValue? c with
      | none, some digit => ipv4Numbers numbers (some digit) rest
      | none, none => none
      | some number, some digit =>
          -- a number has no leading zero and is at most 255
          if number = 0 ∨ number * 10 + digit > 255 then none
          else ipv4Numbers numbers (some (number * 10 + digit)) rest
      | some number, none =>
          if c = 46 ∧ numbers.length < 3 then ipv4Numbers (numbers ++ [number]) none rest else none

/-- The two pieces of a dotted quad. -/
def ipv4Pieces (text : CodePoints) : Option (List Nat) :=
  match ipv4Numbers [] none text with
  | some [first, second, third, fourth] => some [first * 256 + second, third * 256 + fourth]
  | _ => none

/-- The piece being read: the text from its start, its value and its number of digits. -/
structure Current where
  start : CodePoints
  value : Nat
  length : Nat

/-- The loop of the IPv6 parser: the pieces so far, and where `::` stood among them. -/
def pieces (found : List Nat) (compress : Option Nat) (current : Option Current) :
    CodePoints → Option (List Nat × Option Nat)
  | [] =>
      match current with
      | none => some (found, compress)
      | some current => some (found ++ [current.value], compress)
  | c :: rest =>
      match current with
      | none =>
          if found.length = 8 then none
          else if c = 58 then
            if compress.isSome then none
            else pieces (found ++ [0]) (some (found.length + 1)) none rest
          else
            match hexValue? c with
            | some digit => pieces found compress (some ⟨c :: rest, digit, 1⟩) rest
            | none => none
      | some current =>
          if c = 46 then
            if found.length > 6 then none
            else (ipv4Pieces current.start).map fun last => (found ++ last, compress)
          else if c = 58 then
            if rest = [] then none else pieces (found ++ [current.value]) compress none rest
          else
            match hexValue? c with
            | some digit =>
                if current.length < 4 then
                  pieces found compress
                    (some ⟨current.start, current.value * 16 + digit, current.length + 1⟩) rest
                else none
            | none => none

/-- The address of the pieces: what stands behind `::` is moved to the end. -/
def expand (found : List Nat) (compress : Option Nat) : Option (List Nat) :=
  match compress with
  | some index =>
      some (found.take index ++ List.replicate (8 - found.length) 0 ++ found.drop index)
  | none => if found.length = 8 then some found else none

/-- The IPv6 parser. -/
def parse (text : CodePoints) : Option (List Nat) := do
  let (found, compress) ←
    match text with
    | 58 :: 58 :: rest => pieces [0] (some 1) none rest
    | 58 :: _ => none
    | _ => pieces [] none none text
  expand found compress

/-! ## The serializer -/

/-- An ASCII lower hex digit. -/
def hexDigit (digit : Nat) : Nat := if digit < 10 then 48 + digit else 87 + digit

/-- The shortest lower hex text of a number. -/
def hexText (n : Nat) : CodePoints :=
  if n = 0 then [48] else (Nat.digits 16 n).reverse.map hexDigit

/-- How many zero pieces start at an index. -/
def zerosAt (address : List Nat) (index : Nat) : Nat :=
  ((address.drop index).takeWhile fun piece => piece = 0).length

/-- The start of the first longest run of two or more zero pieces. -/
def compressIndex (address : List Nat) : Option Nat :=
  (List.range address.length).find? fun index =>
    2 ≤ zerosAt address index ∧
      ∀ other ∈ List.range address.length, zerosAt address other ≤ zerosAt address index

/-- The loop of the IPv6 serializer. -/
def serializePieces (compress : Option Nat) (ignore0 : Bool) (index : Nat) :
    List Nat → CodePoints
  | [] => []
  | piece :: rest =>
      if ignore0 ∧ piece = 0 then serializePieces compress true (index + 1) rest
      else if compress = some index then
        (if index = 0 then [58, 58] else [58]) ++ serializePieces compress true (index + 1) rest
      else
        hexText piece ++ (if index ≠ 7 then [58] else []) ++
          serializePieces compress false (index + 1) rest

/-- The IPv6 serializer. -/
def serialize (address : List Nat) : CodePoints :=
  serializePieces (compressIndex address) false 0 address

/-- An address: eight pieces of 16 bits. -/
structure IsAddress (address : List Nat) : Prop where
  length : address.length = 8
  small : ∀ piece ∈ address, piece < 65536

/-! ## Reading one piece -/

theorem hexValue?_hexDigit (digit : Nat) (hdigit : digit < 16) :
    hexValue? (hexDigit digit) = some digit := by
  unfold hexDigit hexValue?
  by_cases hten : digit < 10
  · rw [if_pos hten, if_pos (by omega), Nat.add_sub_cancel_left]
  · rw [if_neg hten, if_neg (by omega), if_pos (by omega), Nat.add_sub_cancel_left]

theorem hexDigit_ne (digit : Nat) (hdigit : digit < 16) :
    hexDigit digit ≠ 58 ∧ hexDigit digit ≠ 46 := by
  unfold hexDigit
  split <;> omega

/-- Digits are read from the first to the last. -/
theorem ofDigits_reverse (base : Nat) (digits : List Nat) :
    Nat.ofDigits base digits.reverse =
      digits.foldl (fun value digit => value * base + digit) 0 := by
  rw [Nat.ofDigits_eq_foldr, List.foldr_reverse]
  simp [Nat.add_comm, Nat.mul_comm]

/-- The text of a 16-bit number: one to four hex digits of that value. -/
theorem hexText_digits (n : Nat) (hn : n < 65536) :
    ∃ first digits, hexText n = (first :: digits).map hexDigit ∧ digits.length ≤ 3 ∧
      (∀ digit ∈ first :: digits, digit < 16) ∧
      digits.foldl (fun value digit => value * 16 + digit) first = n := by
  by_cases hzero : n = 0
  · exact ⟨0, [], by simp [hexText, hzero, hexDigit], by simp, by simp, by simp [hzero]⟩
  have hvalue : (Nat.digits 16 n).reverse.foldl (fun value digit => value * 16 + digit) 0 = n := by
    rw [← ofDigits_reverse, List.reverse_reverse, Nat.ofDigits_digits]
  have hlength : (Nat.digits 16 n).length ≤ 4 :=
    (Nat.digits_length_le_iff (by omega) n).mpr (by omega)
  have hsome : (Nat.digits 16 n).reverse ≠ [] := by
    simpa using Nat.digits_ne_nil_iff_ne_zero.mpr hzero
  obtain ⟨first, digits, heq⟩ := List.exists_cons_of_ne_nil hsome
  refine ⟨first, digits, by rw [hexText, if_neg hzero, heq], ?_, ?_, ?_⟩
  · rw [← List.length_reverse, heq, List.length_cons] at hlength
    omega
  · intro digit hdigit
    rw [← heq, List.mem_reverse] at hdigit
    exact Nat.digits_lt_base (by omega) hdigit
  · simpa [heq] using hvalue

theorem hexText_length (n : Nat) (hn : n < 65536) : (hexText n).length ≤ 4 := by
  obtain ⟨first, digits, htext, hlength, -⟩ := hexText_digits n hn
  simp [htext]
  omega

theorem pieces_digits (found : List Nat) (compress : Option Nat) (start : CodePoints)
    (digits : List Nat) (rest : CodePoints) (hdigits : ∀ digit ∈ digits, digit < 16) :
    ∀ value length, length + digits.length ≤ 4 →
      pieces found compress (some ⟨start, value, length⟩) (digits.map hexDigit ++ rest) =
        pieces found compress
          (some ⟨start, digits.foldl (fun value digit => value * 16 + digit) value,
            length + digits.length⟩) rest := by
  induction digits with
  | nil => intro value length hlength; rfl
  | cons digit digits ih =>
      intro value length hlength
      have hdigit := hdigits digit List.mem_cons_self
      obtain ⟨hcolon, hpoint⟩ := hexDigit_ne digit hdigit
      rw [List.length_cons] at hlength
      rw [List.map_cons, List.cons_append, pieces]
      simp only [hcolon, hpoint, if_false, hexValue?_hexDigit digit hdigit]
      rw [if_pos (by omega), ih (fun other hother => hdigits other (List.mem_cons_of_mem _ hother))
        _ _ (by omega), List.foldl_cons, List.length_cons, Nat.add_assoc, Nat.add_comm 1]

theorem pieces_hexText (found : List Nat) (compress : Option Nat) (n : Nat) (rest : CodePoints)
    (hn : n < 65536) (hfound : found.length < 8) :
    ∃ length, pieces found compress none (hexText n ++ rest) =
      pieces found compress (some ⟨hexText n ++ rest, n, length⟩) rest := by
  obtain ⟨first, digits, htext, hlength, hdigits, hvalue⟩ := hexText_digits n hn
  have hfirst := hdigits first List.mem_cons_self
  refine ⟨1 + digits.length, ?_⟩
  rw [htext, List.map_cons, List.cons_append, pieces]
  simp only [(hexDigit_ne first hfirst).1, hexValue?_hexDigit first hfirst, if_false]
  rw [if_neg (by omega), pieces_digits found compress _ digits rest
    (fun digit hdigit => hdigits digit (List.mem_cons_of_mem _ hdigit)) first 1 (by omega), hvalue]

theorem pieces_last (found : List Nat) (compress : Option Nat) (n : Nat) (hn : n < 65536)
    (hfound : found.length < 8) :
    pieces found compress none (hexText n) = some (found ++ [n], compress) := by
  obtain ⟨length, hpieces⟩ := pieces_hexText found compress n [] hn hfound
  rw [List.append_nil] at hpieces
  rw [hpieces, pieces]

theorem pieces_colon (found : List Nat) (compress : Option Nat) (n : Nat) (rest : CodePoints)
    (hn : n < 65536) (hfound : found.length < 8) (hrest : rest ≠ []) :
    pieces found compress none (hexText n ++ 58 :: rest) =
      pieces (found ++ [n]) compress none rest := by
  obtain ⟨length, hpieces⟩ := pieces_hexText found compress n (58 :: rest) hn hfound
  rw [hpieces, pieces]
  simp [hrest]

/-! ## Reading a row of pieces -/

/-- The texts of some pieces with `:` between them. -/
def joined : List Nat → CodePoints
  | [] => []
  | [piece] => hexText piece
  | piece :: next :: rest => hexText piece ++ 58 :: joined (next :: rest)

/-- The texts of some pieces with `:` behind each. -/
def opened (front : List Nat) : CodePoints := front.flatMap fun piece => hexText piece ++ [58]

theorem hexText_head (n : Nat) (hn : n < 65536) (rest : CodePoints) :
    ∃ c more, hexText n ++ rest = c :: more ∧ c ≠ 58 := by
  obtain ⟨first, digits, htext, -, hdigits, -⟩ := hexText_digits n hn
  refine ⟨hexDigit first, digits.map hexDigit ++ rest, by rw [htext]; rfl, ?_⟩
  exact (hexDigit_ne first (hdigits first List.mem_cons_self)).1

theorem joined_ne_nil (piece : Nat) (rest : List Nat) (hpiece : piece < 65536) :
    joined (piece :: rest) ≠ [] := by
  cases rest with
  | nil =>
      obtain ⟨c, more, heq, -⟩ := hexText_head piece hpiece []
      rw [List.append_nil] at heq
      rw [joined, heq]
      exact List.cons_ne_nil c more
  | cons next rest => simp [joined]

theorem pieces_joined (compress : Option Nat) (back : List Nat)
    (hsmall : ∀ piece ∈ back, piece < 65536) :
    ∀ found : List Nat, found.length + back.length ≤ 8 →
      pieces found compress none (joined back) = some (found ++ back, compress) := by
  induction back with
  | nil => intro found hlength; simp [joined, pieces]
  | cons piece rest ih =>
      intro found hlength
      rw [List.length_cons] at hlength
      have hpiece := hsmall piece List.mem_cons_self
      have hrest := fun other hother => hsmall other (List.mem_cons_of_mem piece hother)
      cases rest with
      | nil => exact pieces_last found compress piece hpiece (by omega)
      | cons next rest =>
          have hnext := joined_ne_nil next rest (hrest next List.mem_cons_self)
          rw [joined, pieces_colon found compress piece _ hpiece (by omega) hnext,
            ih hrest (found ++ [piece]) (by simp at hlength ⊢; omega), List.append_assoc]
          rfl

theorem pieces_opened (compress : Option Nat) (rest : CodePoints) (hrest : rest ≠ [])
    (front : List Nat) (hsmall : ∀ piece ∈ front, piece < 65536) :
    ∀ found : List Nat, found.length + front.length ≤ 8 →
      pieces found compress none (opened front ++ rest) =
        pieces (found ++ front) compress none rest := by
  induction front with
  | nil => intro found hlength; simp [opened]
  | cons piece front ih =>
      intro found hlength
      rw [List.length_cons] at hlength
      have hpiece := hsmall piece List.mem_cons_self
      have hfront := fun other hother => hsmall other (List.mem_cons_of_mem piece hother)
      have hopened : opened (piece :: front) ++ rest =
          hexText piece ++ 58 :: (opened front ++ rest) := by
        simp [opened]
      rw [hopened, pieces_colon found compress piece _ hpiece (by omega) (by simp [hrest]),
        ih hfront (found ++ [piece]) (by simp; omega), List.append_assoc]
      rfl

/-! ## What the serializer writes -/

theorem serializePieces_joined (compress : Option Nat) (back : List Nat) :
    ∀ (ignore0 : Bool) (index : Nat), index + back.length = 8 →
      (∀ start, compress = some start → start < index) →
      (ignore0 = true → back.head? ≠ some 0) →
      serializePieces compress ignore0 index back = joined back := by
  induction back with
  | nil => intro ignore0 index hlength hbefore hhead; rfl
  | cons piece rest ih =>
      intro ignore0 index hlength hbefore hhead
      rw [List.length_cons] at hlength
      have hother : compress ≠ some index := fun heq => absurd (hbefore index heq) (by omega)
      have hpiece : ¬(ignore0 = true ∧ piece = 0) := fun ⟨hignore, hzero⟩ =>
        hhead hignore (by rw [hzero]; rfl)
      have hnext := ih false (index + 1) (by omega)
        (fun start hstart => Nat.lt_succ_of_lt (hbefore start hstart)) (by simp)
      rw [serializePieces, if_neg hpiece, if_neg hother, hnext]
      cases rest with
      | nil =>
          have hlast : index = 7 := by simpa using hlength
          simp [hlast, joined]
      | cons next rest =>
          have hinner : index ≠ 7 := by simp at hlength; omega
          simp [hinner, joined]

theorem serializePieces_opened (start : Nat) (hstart : start < 8) (rest front : List Nat) :
    ∀ index, index + front.length = start →
      serializePieces (some start) false index (front ++ rest) =
        opened front ++ serializePieces (some start) false start rest := by
  induction front with
  | nil => intro index hindex; rw [List.length_nil] at hindex; simp [opened, ← hindex]
  | cons piece front ih =>
      intro index hindex
      rw [List.length_cons] at hindex
      have hother : some start ≠ some index := fun heq => by
        rw [Option.some.injEq] at heq
        omega
      have hinner : index ≠ 7 := by omega
      rw [List.cons_append, serializePieces, if_neg (by simp), if_neg hother, if_pos hinner,
        ih (index + 1) (by omega)]
      simp [opened]

theorem serializePieces_zeros (compress : Option Nat) (back : List Nat) (n : Nat) :
    ∀ index, serializePieces compress true index (List.replicate n 0 ++ back) =
      serializePieces compress true (index + n) back := by
  induction n with
  | zero => intro index; rfl
  | succ n ih =>
      intro index
      rw [List.replicate_succ, List.cons_append, serializePieces, if_pos ⟨rfl, rfl⟩, ih,
        Nat.add_assoc, Nat.add_comm 1]

/-- The run of zeros that is written as `::`. -/
theorem compressIndex_spec (address : List Nat) (start : Nat)
    (hcompress : compressIndex address = some start) :
    ∃ front n back, address = front ++ 0 :: (List.replicate n 0 ++ back) ∧
      front.length = start ∧ back.head? ≠ some 0 := by
  have hmem := List.mem_of_find?_eq_some hcompress
  have hfound := List.find?_some hcompress
  rw [decide_eq_true_eq] at hfound
  rw [List.mem_range] at hmem
  obtain ⟨n, hn⟩ : ∃ n, zerosAt address start = n + 1 :=
    Nat.exists_eq_succ_of_ne_zero (by omega)
  have hzeros : (address.drop start).takeWhile (fun piece => piece = 0) =
      List.replicate (n + 1) 0 := by
    refine List.eq_replicate_iff.mpr ⟨hn, fun piece hpiece => ?_⟩
    simpa using List.mem_takeWhile_imp hpiece
  refine ⟨address.take start, n, (address.drop start).dropWhile (fun piece => piece = 0),
    ?_, List.length_take_of_le (Nat.le_of_lt hmem), ?_⟩
  · have hsplit := @List.takeWhile_append_dropWhile _ (fun piece => decide (piece = 0))
      (address.drop start)
    rw [hzeros, List.replicate_succ, List.cons_append] at hsplit
    rw [hsplit, List.take_append_drop]
  · intro hhead
    have hnot := List.head?_dropWhile_not (fun piece => decide (piece = 0)) (address.drop start)
    rw [hhead] at hnot
    simp at hnot

/-! ## The round trip -/

theorem parse_compressed (rest : CodePoints) (found : List Nat) (compress : Option Nat)
    (hpieces : pieces [0] (some 1) none rest = some (found, compress)) :
    parse (58 :: 58 :: rest) = expand found compress := by
  simp [parse, hpieces]

theorem parse_plain (c : Nat) (rest : CodePoints) (found : List Nat) (compress : Option Nat)
    (hc : c ≠ 58) (hpieces : pieces [] none none (c :: rest) = some (found, compress)) :
    parse (c :: rest) = expand found compress := by
  unfold parse
  split
  · rename_i heq
    exact absurd (List.cons.inj heq).1 hc
  · rename_i heq
    exact absurd (List.cons.inj heq).1 hc
  · simp [hpieces]

theorem expand_compressed (front back : List Nat) (n : Nat)
    (hlength : front.length + (n + 1) + back.length = 8) :
    expand (front ++ [0] ++ back) (some (front.length + 1)) =
      some (front ++ 0 :: (List.replicate n 0 ++ back)) := by
  have hzeros : 8 - (front ++ [0] ++ back).length = n := by
    simp only [List.length_append, List.length_singleton]
    omega
  have hfront : (front ++ [0]).length = front.length + 1 := by simp
  rw [expand, hzeros, ← hfront, List.take_left, List.drop_left]
  simp

/-- An address with a run of zeros is parsed back. -/
theorem parse_serialize_compressed (front back : List Nat) (n : Nat)
    (haddress : IsAddress (front ++ 0 :: (List.replicate n 0 ++ back)))
    (hback : back.head? ≠ some 0) :
    parse (serializePieces (some front.length) false 0
        (front ++ 0 :: (List.replicate n 0 ++ back))) =
      some (front ++ 0 :: (List.replicate n 0 ++ back)) := by
  have hlength := haddress.length
  simp only [List.length_append, List.length_cons, List.length_replicate] at hlength
  have hfront : ∀ piece ∈ front, piece < 65536 := fun piece hpiece =>
    haddress.small piece (List.mem_append_left _ hpiece)
  have hrest : ∀ piece ∈ back, piece < 65536 := fun piece hpiece =>
    haddress.small piece (by simp [hpiece])
  -- the text: the pieces in front, `::`, and the pieces behind
  have hbehind := serializePieces_joined (some front.length) back true (front.length + 1 + n)
    (by omega) (fun start hstart => by rw [Option.some.injEq] at hstart; omega) (fun _ => hback)
  have hcolon : serializePieces (some front.length) false front.length
      (0 :: (List.replicate n 0 ++ back)) =
        (if front.length = 0 then [58, 58] else [58]) ++ joined back := by
    rw [serializePieces, if_neg (by simp), if_pos rfl, serializePieces_zeros, hbehind]
  rw [serializePieces_opened front.length (by omega) _ front 0 (by omega), hcolon]
  have hpieces := pieces_joined (some (front.length + 1)) back hrest (front ++ [0])
    (by simp; omega)
  have hexpand := expand_compressed front back n (by omega)
  cases front with
  | nil => exact (parse_compressed (joined back) _ _ hpieces).trans hexpand
  | cons piece front =>
      have hnonzero : (piece :: front).length ≠ 0 := by simp
      rw [if_neg hnonzero]
      have hopened := pieces_opened none ([58] ++ joined back) (by simp) (piece :: front) hfront []
        (by simp at hlength ⊢; omega)
      have hlong : (piece :: front).length < 8 := by omega
      rw [List.nil_append, List.singleton_append, pieces] at hopened
      simp only [Nat.ne_of_lt hlong, if_false, if_true, Option.isSome_none, Bool.false_eq_true]
        at hopened
      rw [hpieces] at hopened
      obtain ⟨c, more, heq, hc⟩ := hexText_head piece (hfront piece List.mem_cons_self)
        ([58] ++ (opened front ++ 58 :: joined back))
      have htext : opened (piece :: front) ++ 58 :: joined back = c :: more := by
        rw [← heq]
        simp [opened]
      rw [htext] at hopened
      rw [List.singleton_append, htext]
      exact (parse_plain c more _ _ hc hopened).trans hexpand

/-- What is serialized is parsed back. -/
theorem parse_serialize (address : List Nat) (haddress : IsAddress address) :
    parse (serialize address) = some address := by
  unfold serialize
  cases hcompress : compressIndex address with
  | some start =>
      obtain ⟨front, n, back, rfl, rfl, hback⟩ := compressIndex_spec address start hcompress
      exact parse_serialize_compressed front back n haddress hback
  | none =>
      have hlength := haddress.length
      rw [serializePieces_joined none address false 0 (by omega) (by simp) (by simp)]
      have hpieces := pieces_joined none address haddress.small [] (by simp [hlength])
      obtain ⟨piece, next, rest, rfl⟩ : ∃ piece next rest, address = piece :: next :: rest := by
        match address with
        | piece :: next :: rest => exact ⟨piece, next, rest, rfl⟩
      obtain ⟨c, more, heq, hc⟩ := hexText_head piece
        (haddress.small piece List.mem_cons_self) (58 :: joined (next :: rest))
      rw [joined, heq] at hpieces ⊢
      rw [parse_plain c more _ _ hc hpieces, expand, List.nil_append, if_pos hlength]

/-! ## What the parser accepts -/

/-- A code point an address is written with. -/
def IsLegal (c : Nat) : Prop := (hexValue? c).isSome ∨ c = 58 ∨ c = 46

theorem hexValue?_lt (c digit : Nat) (hdigit : hexValue? c = some digit) : digit < 16 := by
  unfold hexValue? at hdigit
  split at hdigit
  · cases hdigit; omega
  · split at hdigit
    · cases hdigit; omega
    · split at hdigit
      · cases hdigit; omega
      · cases hdigit

theorem isLegal_of_digit (c digit : Nat) (hdigit : digitValue? c = some digit) : IsLegal c := by
  unfold digitValue? at hdigit
  split at hdigit
  · rename_i hrange
    exact Or.inl (by rw [hexValue?, if_pos hrange]; rfl)
  · cases hdigit

/-- A dotted quad: numbers up to 255, in digits and points. -/
theorem ipv4Numbers_spec (text : CodePoints) :
    ∀ (numbers : List Nat) (current : Option Nat) (found : List Nat),
      (∀ number ∈ numbers, number ≤ 255) → (∀ number, current = some number → number ≤ 255) →
      ipv4Numbers numbers current text = some found →
      (∀ number ∈ found, number ≤ 255) ∧ ∀ c ∈ text, IsLegal c := by
  induction text with
  | nil =>
      intro numbers current found hnumbers hcurrent hfound
      cases current with
      | none => cases hfound
      | some number =>
          rw [ipv4Numbers] at hfound
          split at hfound
          · cases hfound
            exact ⟨List.forall_mem_append.mpr
              ⟨hnumbers, List.forall_mem_singleton.mpr (hcurrent number rfl)⟩, by simp⟩
          · cases hfound
  | cons c rest ih =>
      intro numbers current found hnumbers hcurrent hfound
      have hlegal : ∀ found' : List Nat, IsLegal c → ((∀ number ∈ found', number ≤ 255) ∧
          ∀ other ∈ rest, IsLegal other) →
          (∀ number ∈ found', number ≤ 255) ∧ ∀ other ∈ c :: rest, IsLegal other :=
        fun found' hc hspec => ⟨hspec.1, List.forall_mem_cons.mpr ⟨hc, hspec.2⟩⟩
      cases hdigit : digitValue? c with
      | some digit =>
          have hc := isLegal_of_digit c digit hdigit
          have hten : digit < 10 := by
            unfold digitValue? at hdigit
            split at hdigit <;> cases hdigit
            omega
          cases current with
          | none =>
              simp only [ipv4Numbers, hdigit] at hfound
              exact hlegal found hc (ih numbers (some digit) found hnumbers
                (fun number heq => by cases heq; omega) hfound)
          | some number =>
              simp only [ipv4Numbers, hdigit] at hfound
              split at hfound
              · cases hfound
              · exact hlegal found hc (ih numbers _ found hnumbers
                  (fun next heq => by cases heq; omega) hfound)
      | none =>
          cases current with
          | none =>
              simp only [ipv4Numbers, hdigit] at hfound
              cases hfound
          | some number =>
              simp only [ipv4Numbers, hdigit] at hfound
              split at hfound
              · rename_i hpoint
                exact hlegal found (Or.inr (Or.inr hpoint.1)) (ih _ none found
                  (List.forall_mem_append.mpr
                    ⟨hnumbers, List.forall_mem_singleton.mpr (hcurrent number rfl)⟩)
                  (by simp) hfound)
              · cases hfound

theorem ipv4Pieces_spec (text : CodePoints) (last : List Nat) (hlast : ipv4Pieces text = some last) :
    last.length = 2 ∧ (∀ piece ∈ last, piece < 65536) ∧ ∀ c ∈ text, IsLegal c := by
  unfold ipv4Pieces at hlast
  split at hlast
  · rename_i first second third fourth hnumbers
    cases hlast
    obtain ⟨hsmall, hlegal⟩ := ipv4Numbers_spec text [] none _ (by simp) (by simp) hnumbers
    simp only [List.forall_mem_cons] at hsmall
    refine ⟨rfl, fun piece hpiece => ?_, hlegal⟩
    simp only [List.mem_cons, List.not_mem_nil, or_false] at hpiece
    omega
  · cases hlast

/-- What holds of the pieces read so far. -/
structure Reading (found : List Nat) (compress : Option Nat) (current : Option Current)
    (text : CodePoints) : Prop where
  length : found.length ≤ 8
  small : ∀ piece ∈ found, piece < 65536
  compress : ∀ index, compress = some index → index ≤ found.length
  room : ∀ piece, current = some piece → found.length < 8
  digits : ∀ piece, current = some piece → piece.length ≤ 4
  value : ∀ piece, current = some piece → piece.value < 16 ^ piece.length
  start : ∀ piece, current = some piece → ∀ c ∈ text, c ∈ piece.start

theorem Reading.push {found : List Nat} {compress : Option Nat} {piece : Current}
    {text : CodePoints} (reading : Reading found compress (some piece) text) (rest : CodePoints) :
    Reading (found ++ [piece.value]) compress none rest := by
  have hroom := reading.room piece rfl
  have hvalue := reading.value piece rfl
  have hpower : 16 ^ piece.length ≤ 16 ^ 4 := Nat.pow_le_pow_right (by omega)
    (reading.digits piece rfl)
  refine ⟨by simp; omega,
    List.forall_mem_append.mpr ⟨reading.small, List.forall_mem_singleton.mpr (by omega)⟩,
    fun index hindex => ?_, by simp, by simp, by simp, by simp⟩
  have hbound := reading.compress index hindex
  simp
  omega

/-- The pieces of an accepted text, and the code points of what was read. -/
theorem pieces_spec (text : CodePoints) :
    ∀ (found : List Nat) (compress : Option Nat) (current : Option Current)
      (all : List Nat) (index : Option Nat),
      Reading found compress current text →
      pieces found compress current text = some (all, index) →
      Reading all index none [] ∧ ∀ c ∈ text, IsLegal c := by
  induction text with
  | nil =>
      intro found compress current all index reading hpieces
      cases current with
      | none => cases hpieces; exact ⟨reading, by simp⟩
      | some piece => cases hpieces; exact ⟨reading.push [], by simp⟩
  | cons c rest ih =>
      intro found compress current all index reading hpieces
      cases current with
      | none =>
          rw [pieces] at hpieces
          split at hpieces
          · cases hpieces
          rename_i hfull
          have hroom : found.length < 8 := Nat.lt_of_le_of_ne reading.length hfull
          split at hpieces
          · rename_i hcolon
            split at hpieces
            · cases hpieces
            obtain ⟨hall, hlegal⟩ := ih (found ++ [0]) _ none all index
              ⟨by simp; omega,
                List.forall_mem_append.mpr ⟨reading.small, List.forall_mem_singleton.mpr (by omega)⟩,
                by simp, by simp, by simp, by simp, by simp⟩ hpieces
            exact ⟨hall, List.forall_mem_cons.mpr ⟨Or.inr (Or.inl hcolon), hlegal⟩⟩
          · split at hpieces
            · rename_i digit hdigit
              have hvalue := hexValue?_lt c digit hdigit
              obtain ⟨hall, hlegal⟩ := ih found compress _ all index
                ⟨reading.length, reading.small, reading.compress, fun _ _ => hroom,
                  by rintro _ ⟨⟩; simp, by rintro _ ⟨⟩; simpa using hvalue,
                  by rintro _ ⟨⟩ other hother; exact List.mem_cons_of_mem c hother⟩ hpieces
              exact ⟨hall, List.forall_mem_cons.mpr ⟨Or.inl (by simp [hdigit]), hlegal⟩⟩
            · cases hpieces
      | some piece =>
          rw [pieces] at hpieces
          have hstart := reading.start piece rfl
          split at hpieces
          · -- the dotted quad is read from the start of the piece, and ends the text
            split at hpieces
            · cases hpieces
            rename_i hroom
            rw [Option.map_eq_some_iff] at hpieces
            obtain ⟨last, hlast, heq⟩ := hpieces
            obtain ⟨htwo, hsmall, hlegal⟩ := ipv4Pieces_spec piece.start last hlast
            cases heq
            refine ⟨⟨by simp; omega, List.forall_mem_append.mpr ⟨reading.small, hsmall⟩,
              fun index hindex => ?_, by simp, by simp, by simp, by simp⟩,
              fun other hother => hlegal other (hstart other hother)⟩
            have hbound := reading.compress index hindex
            simp
            omega
          · split at hpieces
            · rename_i hcolon
              split at hpieces
              · cases hpieces
              obtain ⟨hall, hlegal⟩ := ih _ compress none all index (reading.push rest) hpieces
              exact ⟨hall, List.forall_mem_cons.mpr ⟨Or.inr (Or.inl hcolon), hlegal⟩⟩
            · split at hpieces
              · rename_i digit hdigit
                have hlt := hexValue?_lt c digit hdigit
                split at hpieces
                · rename_i hfour
                  have hvalue := reading.value piece rfl
                  obtain ⟨hall, hlegal⟩ := ih found compress _ all index
                    ⟨reading.length, reading.small, reading.compress,
                      fun _ _ => reading.room piece rfl, by rintro _ ⟨⟩; simpa using hfour,
                      by rintro _ ⟨⟩; simp only [pow_succ]; omega,
                      by rintro _ ⟨⟩ other hother
                         exact hstart other (List.mem_cons_of_mem c hother)⟩ hpieces
                  exact ⟨hall, List.forall_mem_cons.mpr ⟨Or.inl (by simp [hdigit]), hlegal⟩⟩
                · cases hpieces
              · cases hpieces

theorem expand_isAddress (found : List Nat) (compress : Option Nat) (address : List Nat)
    (reading : Reading found compress none []) (hexpand : expand found compress = some address) :
    IsAddress address := by
  have hlength := reading.length
  cases compress with
  | none =>
      rw [expand] at hexpand
      split at hexpand
      · rename_i hfull
        cases hexpand
        exact ⟨hfull, reading.small⟩
      · cases hexpand
  | some index =>
      have hindex := reading.compress index rfl
      cases hexpand
      refine ⟨by simp; omega, fun piece hpiece => ?_⟩
      simp only [List.mem_append, List.mem_replicate] at hpiece
      rcases hpiece with (hfront | ⟨-, rfl⟩) | hback
      · exact reading.small piece (List.mem_of_mem_take hfront)
      · omega
      · exact reading.small piece (List.mem_of_mem_drop hback)

/-- An accepted text is an address in hex digits, colons and points. -/
theorem parse_spec (text : CodePoints) (address : List Nat) (hparse : parse text = some address) :
    IsAddress address ∧ ∀ c ∈ text, IsLegal c := by
  have hcolon : IsLegal 58 := Or.inr (Or.inl rfl)
  unfold parse at hparse
  dsimp only at hparse
  split at hparse
  · rename_i rest
    obtain ⟨⟨found, compress⟩, hpieces, hexpand⟩ := Option.bind_eq_some_iff.mp hparse
    obtain ⟨reading, hlegal⟩ := pieces_spec rest [0] (some 1) none found compress
      ⟨by simp, by simp, by simp, by simp, by simp, by simp, by simp⟩ hpieces
    exact ⟨expand_isAddress found compress address reading hexpand,
      List.forall_mem_cons.mpr ⟨hcolon, List.forall_mem_cons.mpr ⟨hcolon, hlegal⟩⟩⟩
  · cases hparse
  · obtain ⟨⟨found, compress⟩, hpieces, hexpand⟩ := Option.bind_eq_some_iff.mp hparse
    obtain ⟨reading, hlegal⟩ := pieces_spec text [] none none found compress
      ⟨by simp, by simp, by simp, by simp, by simp, by simp, by simp⟩ hpieces
    exact ⟨expand_isAddress found compress address reading hexpand, hlegal⟩

/-! ## The serialized text -/

theorem hexText_legal (n : Nat) (hn : n < 65536) : ∀ c ∈ hexText n, IsLegal c := by
  intro c hc
  obtain ⟨first, digits, htext, -, hdigits, -⟩ := hexText_digits n hn
  rw [htext, List.mem_map] at hc
  obtain ⟨digit, hdigit, rfl⟩ := hc
  exact Or.inl (by simp [hexValue?_hexDigit digit (hdigits digit hdigit)])

theorem serializePieces_spec (compress : Option Nat) (address : List Nat)
    (hsmall : ∀ piece ∈ address, piece < 65536) :
    ∀ (ignore0 : Bool) (index : Nat),
      (serializePieces compress ignore0 index address).length ≤ 5 * address.length ∧
        ∀ c ∈ serializePieces compress ignore0 index address, IsLegal c := by
  have hcolon : IsLegal 58 := Or.inr (Or.inl rfl)
  induction address with
  | nil => intro ignore0 index; simp [serializePieces]
  | cons piece rest ih =>
      intro ignore0 index
      have hpiece := hsmall piece List.mem_cons_self
      have hrest := ih fun other hother => hsmall other (List.mem_cons_of_mem piece hother)
      rw [serializePieces, List.length_cons]
      split
      · obtain ⟨hlength, hlegal⟩ := hrest true (index + 1)
        exact ⟨by omega, hlegal⟩
      · split
        · obtain ⟨hlength, hlegal⟩ := hrest true (index + 1)
          split <;> exact ⟨by simp; omega, by simpa [hcolon] using hlegal⟩
        · obtain ⟨hlength, hlegal⟩ := hrest false (index + 1)
          have htext := hexText_length piece hpiece
          refine ⟨?_, List.forall_mem_append.mpr ⟨List.forall_mem_append.mpr
            ⟨hexText_legal piece hpiece, ?_⟩, hlegal⟩⟩
          · split <;> simp <;> omega
          · split <;> simp [hcolon]

theorem serialize_spec (address : List Nat) (haddress : IsAddress address) :
    (serialize address).length ≤ 40 ∧ (∀ c ∈ serialize address, IsLegal c) ∧
      58 ∈ serialize address := by
  obtain ⟨hlength, hlegal⟩ :=
    serializePieces_spec (compressIndex address) address haddress.small false 0
  rw [haddress.length] at hlength
  refine ⟨hlength, hlegal, ?_⟩
  -- a `:` is written with the first piece
  cases address with
  | nil => exact absurd haddress.length (by simp)
  | cons piece rest =>
      rw [serialize, serializePieces, if_neg (by simp)]
      split <;> simp

end LearnApue.Foundation.Ipv6
