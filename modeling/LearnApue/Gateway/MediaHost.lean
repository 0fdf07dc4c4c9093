import LearnApue.Foundation.HttpUrl

set_option autoImplicit false

/-!
# The media host of the diagnostic page

`normalizeMediaHost` of `web/diagnostic.html` reads the query parameter `media_host`.
What it returns becomes the host of the video's URL.  It takes one pair of square
brackets off; text with a `:` goes to the URL parser, in brackets again; text of digits
and points must be a dotted quad; every other text is split into DNS labels.

The text handed to the URL parser is not checked before.  Where it holds a `]`, the
parser finds the end of the host there, and reads a port and a path behind it.
-/

namespace LearnApue.Gateway.MediaHost

open LearnApue.Foundation
open LearnApue.Foundation.Ipv6 (CodePoints points points_ofList)
open LearnApue.Foundation.HttpUrl

/-! ## The tests on a text -/

/-- What `trim` takes off: white space and line terminators. -/
def white : CodeUnits :=
  [9, 10, 11, 12, 13, 32, 0xA0, 0x1680, 0x2000, 0x2001, 0x2002, 0x2003, 0x2004, 0x2005, 0x2006,
    0x2007, 0x2008, 0x2009, 0x200A, 0x2028, 0x2029, 0x202F, 0x205F, 0x3000, 0xFEFF]

def trim (value : CodeUnits) : CodeUnits :=
  (value.dropWhile fun c => c ∈ white).rdropWhile fun c => c ∈ white

/-- `startsWith("[") && endsWith("]")`. -/
def isEnclosed (value : CodeUnits) : Bool :=
  value.head? = some 91 && value.getLast? = some 93

def isDigit (c : Nat) : Bool := 48 ≤ c && c ≤ 57

/-- `/^[0-9.]+$/`. -/
def isNumeric (candidate : CodeUnits) : Bool :=
  candidate ≠ [] && candidate.all fun c => isDigit c || c = 46

/-- `/^(0|[1-9][0-9]{0,2})$/`. -/
def isOctet : CodeUnits → Bool
  | [] => false
  | first :: rest =>
      (first = 48 && rest = []) ||
        (49 ≤ first && first ≤ 57 && rest.length ≤ 2 && rest.all isDigit)

/-- `Number` of a text of digits. -/
def number (octet : CodeUnits) : Nat := octet.foldl (fun n c => n * 10 + (c - 48)) 0

/-- `[a-z0-9]`. -/
def isAlnum (c : Nat) : Bool := (97 ≤ c && c ≤ 122) || isDigit c

/-- `/^[a-z0-9](?:[a-z0-9-]{0,61}[a-z0-9])?$/`. -/
def isLabel : CodeUnits → Bool
  | [] => false
  | first :: rest =>
      isAlnum first &&
        (rest = [] ||
          (rest.dropLast.length ≤ 61 && rest.dropLast.all (fun c => isAlnum c || c = 45) &&
            rest.getLast?.any isAlnum))

/-! ## The function -/

section Function

variable (lower : CodeUnits → CodeUnits) (domainHost : CodePoints → Option CodePoints)

/-- The host of a candidate: the three branches of `normalizeMediaHost`. -/
def hostOf (candidate : CodeUnits) : Option CodeUnits :=
  if 58 ∈ candidate then
    httpHostname domainHost (usv (points "[" ++ candidate ++ points "]:8889/"))
  else if isNumeric candidate then
    let octets := candidate.splitOn 46
    if octets.length ≠ 4 || octets.any (fun octet => !isOctet octet || number octet > 255) then none
    else some candidate
  else
    let labels := (lower candidate).splitOn 46
    if labels.any fun label => !isLabel label then none else some ([46].intercalate labels)

/-- `normalizeMediaHost`; `none` is `null`, and an argument that is no string is `none`. -/
def normalizeMediaHost : Option CodeUnits → Option CodeUnits
  | none => none
  | some value =>
      if value = [] ∨ value.length > 253 ∨ trim value ≠ value ∨ 37 ∈ value then none
      else if isEnclosed value then hostOf lower domainHost (value.drop 1).dropLast
      else if 91 ∈ value ∨ 93 ∈ value then none
      else hostOf lower domainHost value

end Function

/-! ## `toLowerCase` -/

/-- The small letter of an ASCII letter; the Kelvin sign has the small letter `k`. -/
def lowerUnit (c : Nat) : Nat :=
  if 65 ≤ c ∧ c ≤ 90 then c + 32 else if c = 0x212A then 107 else c

/-- What holds of `toLowerCase`: the Kelvin sign is the only character outside ASCII whose
small letters are in ASCII. -/
structure Lowers (lower : CodeUnits → CodeUnits) : Prop where
  keeps : ∀ text, (∀ c ∈ text, c < 128 ∨ c = 0x212A) → lower text = text.map lowerUnit
  ascii : ∀ text, (∀ c ∈ lower text, c < 128) → ∀ c ∈ text, c < 128 ∨ c = 0x212A

/-! ## Bare hosts -/

/-- The text without one enclosing pair of square brackets. -/
def withoutBrackets (value : CodeUnits) : CodeUnits :=
  if isEnclosed value then (value.drop 1).dropLast else value

/-- The shortest decimal text of a number. -/
def decimalText (n : Nat) : CodeUnits :=
  if n = 0 then [48] else (Nat.digits 10 n).reverse.map fun digit => 48 + digit

/-- A DNS label, in letters of either case. -/
structure IsDnsLabel (label : CodeUnits) : Prop where
  length : 1 ≤ label.length ∧ label.length ≤ 63
  chars : ∀ c ∈ label, isAlnum c ∨ (65 ≤ c ∧ c ≤ 90) ∨ c = 45
  first : label.head? ≠ some 45
  last : label.getLast? ≠ some 45

/-- An IPv4 dotted quad, a DNS name or an IPv6 literal. -/
inductive IsHost (candidate : CodeUnits) : Prop where
  | ipv4 (numbers : List Nat) (four : numbers.length = 4) (small : ∀ n ∈ numbers, n ≤ 255)
      (text : candidate = [46].intercalate (numbers.map decimalText))
  | name (labels : List CodeUnits) (nonempty : labels ≠ []) (all : ∀ label ∈ labels, IsDnsLabel label)
      (text : candidate = [46].intercalate labels)
  | ipv6 (address : List Nat) (text : Ipv6.parse (usv candidate) = some address)

/-- What stands for a path, a query, a fragment, credentials, brackets or a zone. -/
def forbidden : CodeUnits := delimiters ++ [37]

/-- The value is a bare host, and what is returned for it is kept as it is. -/
structure BareHost (lower : CodeUnits → CodeUnits) (domainHost : CodePoints → Option CodePoints)
    (value host : CodeUnits) : Prop where
  plain : ∀ c ∈ withoutBrackets value, c ∉ forbidden
  isHost : IsHost (withoutBrackets value)
  again : normalizeMediaHost lower domainHost (some host) = some host

/-- A text with a colon holds no delimiter and nothing the URL parser removes; a text
without one holds no Kelvin sign. -/
def Harmless (value : CodeUnits) : Prop :=
  if 58 ∈ withoutBrackets value then IsClean (withoutBrackets value)
  else 0x212A ∉ withoutBrackets value

/-! ## The code points of a host -/

/-- A letter, a digit, a hyphen, a point or a colon. -/
def IsHostChar (c : Nat) : Prop :=
  (45 ≤ c ∧ c ≤ 46) ∨ (48 ≤ c ∧ c ≤ 58) ∨ (65 ≤ c ∧ c ≤ 90) ∨ (97 ≤ c ∧ c ≤ 122)

theorem isHostChar_of_isAlnum (c : Nat) (hc : isAlnum c = true) : IsHostChar c := by
  simp [isAlnum, isDigit] at hc
  unfold IsHostChar
  omega

theorem isHostChar_of_isLegal (c : Nat) (hc : Ipv6.IsLegal c) : IsHostChar c := by
  unfold IsHostChar
  rcases hc with hdigit | rfl | rfl
  · unfold Ipv6.hexValue? at hdigit
    split at hdigit
    · omega
    · split at hdigit
      · omega
      · split at hdigit
        · omega
        · cases hdigit
  · omega
  · omega

theorem mem_intercalate (c : Nat) (texts : List CodeUnits) (hc : c ∈ [46].intercalate texts) :
    c = 46 ∨ ∃ text ∈ texts, c ∈ text := by
  induction texts with
  | nil => simp at hc
  | cons text rest ih =>
      cases rest with
      | nil =>
          rw [List.intercalate_singleton] at hc
          exact Or.inr ⟨text, List.mem_cons_self, hc⟩
      | cons next rest =>
          rw [List.intercalate_cons_cons, List.append_assoc, List.mem_append,
            List.singleton_append, List.mem_cons] at hc
          rcases hc with hfirst | hpoint | hrest
          · exact Or.inr ⟨text, List.mem_cons_self, hfirst⟩
          · exact Or.inl hpoint
          · rcases ih hrest with hpoint | ⟨other, hother, hmem⟩
            · exact Or.inl hpoint
            · exact Or.inr ⟨other, List.mem_cons_of_mem text hother, hmem⟩

theorem mem_intercalate_of_mem (c : Nat) (text : CodeUnits) (texts : List CodeUnits)
    (htext : text ∈ texts) (hc : c ∈ text) : c ∈ [46].intercalate texts := by
  induction texts with
  | nil => cases htext
  | cons first rest ih =>
      cases rest with
      | nil =>
          rw [List.mem_singleton.mp htext] at hc
          rwa [List.intercalate_singleton]
      | cons next rest =>
          rw [List.intercalate_cons_cons, List.append_assoc, List.mem_append]
          rcases List.mem_cons.mp htext with rfl | hrest
          · exact Or.inl hc
          · exact Or.inr (List.mem_cons_of_mem 46 (ih hrest))

theorem isHostChar_of_decimalText (n c : Nat) (hc : c ∈ decimalText n) : IsHostChar c := by
  unfold IsHostChar
  unfold decimalText at hc
  split at hc
  · rw [List.mem_singleton.mp hc]
    omega
  · rw [List.mem_map] at hc
    obtain ⟨digit, hdigit, rfl⟩ := hc
    have hlt := Nat.digits_lt_base (by omega) (List.mem_reverse.mp hdigit)
    omega

/-- A host is written with these; beyond the surrogates nothing is said. -/
theorem IsHost.isHostChar {candidate : CodeUnits} (host : IsHost candidate) (c : Nat)
    (hmem : c ∈ candidate) (hc : c < 0xD800) : IsHostChar c := by
  have hpoint : IsHostChar 46 := Or.inl (by omega)
  cases host with
  | ipv4 numbers four small text =>
      rw [text] at hmem
      rcases mem_intercalate c _ hmem with rfl | ⟨octet, hoctet, hin⟩
      · exact hpoint
      · obtain ⟨n, -, rfl⟩ := List.mem_map.mp hoctet
        exact isHostChar_of_decimalText n c hin
  | name labels nonempty all text =>
      rw [text] at hmem
      rcases mem_intercalate c _ hmem with rfl | ⟨label, hlabel, hin⟩
      · exact hpoint
      · rcases (all label hlabel).chars c hin with halnum | hupper | rfl
        · exact isHostChar_of_isAlnum c halnum
        · exact Or.inr (Or.inr (Or.inl hupper))
        · exact Or.inl (by omega)
  | ipv6 address text =>
      have hlegal := (Ipv6.parse_spec (usv candidate) address text).2 c
        ((mem_usv c hc candidate).mpr hmem)
      exact isHostChar_of_isLegal c hlegal

theorem lt_of_mem_forbidden (c : Nat) (hc : c ∈ forbidden) : c < 0xD800 ∧ ¬IsHostChar c := by
  simp [forbidden, delimiters] at hc
  unfold IsHostChar
  omega

theorem IsHost.plain {candidate : CodeUnits} (host : IsHost candidate) :
    ∀ c ∈ candidate, c ∉ forbidden := by
  intro c hmem hc
  obtain ⟨hlt, hnot⟩ := lt_of_mem_forbidden c hc
  exact hnot (host.isHostChar c hmem hlt)

/-! ## What passes the tests -/

/-- An accepted octet is the decimal text of its number. -/
theorem decimalText_number (octet : CodeUnits) (hoctet : isOctet octet = true) :
    decimalText (number octet) = octet := by
  cases octet with
  | nil => cases hoctet
  | cons first rest =>
      simp [isOctet] at hoctet
      rcases hoctet with ⟨rfl, rfl⟩ | ⟨⟨⟨hlow, hhigh⟩, -⟩, hrest⟩
      · decide
      have hdigits : ∀ c ∈ first :: rest, 48 ≤ c ∧ c ≤ 57 := by
        refine List.forall_mem_cons.mpr ⟨by omega, fun c hc => ?_⟩
        have hdigit := hrest c hc
        simpa [isDigit] using hdigit
      have hnumber : number (first :: rest) =
          Nat.ofDigits 10 ((first :: rest).map fun c => c - 48).reverse := by
        rw [Ipv6.ofDigits_reverse, List.foldl_map]
        rfl
      have htext : Nat.digits 10 (number (first :: rest)) =
          ((first :: rest).map fun c => c - 48).reverse := by
        rw [hnumber, Nat.digits_ofDigits 10 (by omega)]
        · intro digit hdigit
          rw [List.mem_reverse, List.mem_map] at hdigit
          obtain ⟨c, hc, rfl⟩ := hdigit
          have hrange := hdigits c hc
          omega
        · intro hne
          simp
          omega
      have hpos : number (first :: rest) ≠ 0 := by
        intro hzero
        rw [hzero, Nat.digits_zero] at htext
        simp at htext
      have hback : ((first :: rest).map fun c => 48 + (c - 48)) = (first :: rest).map id :=
        List.map_congr_left fun c hc => Nat.add_sub_cancel' (hdigits c hc).1
      rw [decimalText, if_neg hpos, htext, List.reverse_reverse, List.map_map]
      exact hback.trans (List.map_id _)

/-- What the test of a label says. -/
theorem isLabel_spec (label : CodeUnits) (hlabel : isLabel label = true) :
    (1 ≤ label.length ∧ label.length ≤ 63) ∧ (∀ c ∈ label, isAlnum c ∨ c = 45) ∧
      label.head? ≠ some 45 ∧ label.getLast? ≠ some 45 := by
  have hhyphen : ∀ c, isAlnum c = true → c ≠ 45 := fun c hc heq => by
    rw [heq] at hc
    exact absurd hc (by decide)
  cases label with
  | nil => cases hlabel
  | cons first rest =>
      rw [isLabel, Bool.and_eq_true] at hlabel
      obtain ⟨hfirst, hrest⟩ := hlabel
      rcases List.eq_nil_or_concat rest with rfl | ⟨inner, last, rfl⟩
      · have hnot := hhyphen first hfirst
        simp [hfirst, hnot]
      · simp at hrest
        obtain ⟨⟨hlength, hinner⟩, hlast⟩ := hrest
        refine ⟨by simp; omega, ?_, by simpa using hhyphen first hfirst, ?_⟩
        · intro c hc
          simp at hc
          rcases hc with rfl | hin | rfl
          · exact Or.inl hfirst
          · exact hinner c hin
          · exact Or.inl hlast
        · have hnot := hhyphen last hlast
          rw [List.concat_eq_append, ← List.cons_append, List.getLast?_concat]
          simpa using hnot

theorem isAlnum_of_lowerUnit (c : Nat) (hc : c < 128) (halnum : isAlnum (lowerUnit c) = true) :
    isAlnum c = true ∨ (65 ≤ c ∧ c ≤ 90) := by
  unfold lowerUnit at halnum
  split at halnum
  · rename_i hupper
    exact Or.inr hupper
  · rw [if_neg (by omega)] at halnum
    exact Or.inl halnum

theorem lowerUnit_eq_iff (c other : Nat) (hc : c < 128) (hother : other < 65) :
    lowerUnit c = other ↔ c = other := by
  unfold lowerUnit
  split
  · omega
  · rw [if_neg (by omega)]

/-- A label whose small letters pass the test. -/
theorem isDnsLabel_of_lower (label : CodeUnits) (hascii : ∀ c ∈ label, c < 128)
    (hlabel : isLabel (label.map lowerUnit) = true) : IsDnsLabel label := by
  obtain ⟨hlength, hchars, hfirst, hlast⟩ := isLabel_spec _ hlabel
  rw [List.length_map] at hlength
  refine ⟨hlength, fun c hc => ?_, fun hhead => ?_, fun hend => ?_⟩
  · rcases hchars (lowerUnit c) (List.mem_map_of_mem hc) with halnum | hhyphen
    · rcases isAlnum_of_lowerUnit c (hascii c hc) halnum with hlower | hupper
      · exact Or.inl hlower
      · exact Or.inr (Or.inl hupper)
    · exact Or.inr (Or.inr ((lowerUnit_eq_iff c 45 (hascii c hc) (by omega)).mp hhyphen))
  · rw [List.head?_map, hhead] at hfirst
    exact hfirst rfl
  · rw [List.getLast?_map, hend] at hlast
    exact hlast rfl

theorem splitOn_lower (text : CodeUnits) (hascii : ∀ c ∈ text, c < 128) :
    (text.map lowerUnit).splitOn 46 = (text.splitOn 46).map (List.map lowerUnit) := by
  induction text with
  | nil => rfl
  | cons c rest ih =>
      have hc := hascii c List.mem_cons_self
      rw [List.map_cons, List.splitOn_cons_eq_if_modifyHead, List.splitOn_cons_eq_if_modifyHead,
        ih fun other hother => hascii other (List.mem_cons_of_mem c hother)]
      simp only [beq_iff_eq, lowerUnit_eq_iff c 46 hc (by omega)]
      split
      · rfl
      · cases rest.splitOn 46 with
        | nil => rfl
        | cons head more => rfl

/-- Small letters make no text of digits and points. -/
theorem isNumeric_lower (text : CodeUnits) (hascii : ∀ c ∈ text, c < 128) :
    isNumeric (text.map lowerUnit) = isNumeric text := by
  have hunit : ∀ c ∈ text, (isDigit (lowerUnit c) || decide (lowerUnit c = 46)) =
      (isDigit c || decide (c = 46)) := by
    intro c hc
    have hlt := hascii c hc
    unfold lowerUnit isDigit
    split
    · rw [Bool.eq_iff_iff]
      simp
      omega
    · rw [if_neg (by omega)]
  rw [Bool.eq_iff_iff]
  simp only [isNumeric, List.all_map, Bool.and_eq_true, decide_eq_true_eq, ne_eq,
    List.map_eq_nil_iff, List.all_eq_true, Function.comp_apply]
  refine and_congr_right fun _ => forall₂_congr fun c hc => ?_
  rw [hunit c hc]

/-! ## Accepted values -/

section Accepted

variable {lower : CodeUnits → CodeUnits} {domainHost : CodePoints → Option CodePoints}

theorem trim_eq_self (value : CodeUnits) (hchars : ∀ c ∈ value, c ∉ white) :
    trim value = value := by
  have hfront : value.dropWhile (fun c => c ∈ white) = value := by
    cases value with
    | nil => rfl
    | cons first rest =>
        exact List.dropWhile_cons_of_neg (by simpa using hchars first List.mem_cons_self)
  rw [trim, hfront, List.rdropWhile_eq_self_iff]
  intro hne
  simpa using hchars _ (List.getLast_mem hne)

theorem IsHostChar.passes {c : Nat} (hc : IsHostChar c) :
    c ∉ white ∧ c ≠ 37 ∧ c ≠ 91 ∧ c ≠ 93 := by
  unfold IsHostChar at hc
  simp [white]
  omega

/-- A text of host characters is its own candidate. -/
theorem normalize_text (text : CodeUnits) (hsome : text ≠ []) (hlength : text.length ≤ 253)
    (hchars : ∀ c ∈ text, IsHostChar c) :
    normalizeMediaHost lower domainHost (some text) = hostOf lower domainHost text := by
  have htrim := trim_eq_self text fun c hc => (hchars c hc).passes.1
  have hzone : 37 ∉ text := fun hmem => (hchars 37 hmem).passes.2.1 rfl
  have hopen : 91 ∉ text := fun hmem => (hchars 91 hmem).passes.2.2.1 rfl
  have hclose : 93 ∉ text := fun hmem => (hchars 93 hmem).passes.2.2.2 rfl
  have henclosed : isEnclosed text = false := by
    rw [isEnclosed, Bool.and_eq_false_iff]
    exact Or.inl (decide_eq_false fun hhead => hopen (List.mem_of_head? hhead))
  have hshort : ¬text.length > 253 := by omega
  simp [normalizeMediaHost, hsome, hshort, htrim, hzone, henclosed, hopen, hclose]

theorem hostOf_clean (candidate : CodeUnits) (hcolon : 58 ∈ candidate)
    (hclean : IsClean candidate) :
    hostOf lower domainHost candidate = (Ipv6.parse (usv candidate)).map bracketed := by
  have hscalars : IsClean (usv candidate) := by
    intro c hc
    have hlt : c ∈ delimiters ∨ c ∈ removed → c < 0xD800 := fun hin => by
      simp [delimiters, removed] at hin
      omega
    constructor
    · intro hin
      exact (hclean c ((mem_usv c (hlt (Or.inl hin)) candidate).mp hc)).1 hin
    · intro hin
      exact (hclean c ((mem_usv c (hlt (Or.inr hin)) candidate).mp hc)).2 hin
  have htail : usv (points "]:8889/") = points "]:8889/" := usv_eq_self _ (by decide)
  have htext : usv (points "[" ++ candidate ++ points "]:8889/") =
      91 :: (usv candidate ++ 93 :: 58 :: points "8889") ++ [47] := by
    have hcut := usv_append candidate 93 (points ":8889/") (by decide)
    calc usv (points "[" ++ candidate ++ points "]:8889/")
        = usv (91 :: (candidate ++ 93 :: points ":8889/")) := by
          simp [points]
      _ = 91 :: (usv candidate ++ usv (points "]:8889/")) := by
          rw [usv_cons 91 _ (by decide), hcut]
          rfl
      _ = 91 :: (usv candidate ++ 93 :: 58 :: points "8889") ++ [47] := by
          rw [htail]
          simp [points]
  rw [hostOf, if_pos hcolon, htext]
  exact httpHostname_bracketed domainHost (usv candidate) (points "8889") hscalars (by decide)

/-- What is returned for an address is returned for it again. -/
theorem normalize_bracketed (address : List Nat) (haddress : Ipv6.IsAddress address) :
    normalizeMediaHost lower domainHost (some (bracketed address)) = some (bracketed address) := by
  obtain ⟨hlength, hlegal, hcolon⟩ := Ipv6.serialize_spec address haddress
  have hchars : ∀ c ∈ Ipv6.serialize address, IsHostChar c := fun c hc =>
    isHostChar_of_isLegal c (hlegal c hc)
  have hall : ∀ c ∈ bracketed address, c ∉ white ∧ c ≠ 37 := by
    refine List.forall_mem_cons.mpr ⟨by decide, List.forall_mem_append.mpr
      ⟨fun c hc => ?_, List.forall_mem_singleton.mpr (by decide)⟩⟩
    exact ⟨(hchars c hc).passes.1, (hchars c hc).passes.2.1⟩
  have htrim := trim_eq_self (bracketed address) fun c hc => (hall c hc).1
  have hzone : 37 ∉ bracketed address := fun hmem => (hall 37 hmem).2 rfl
  have hshort : ¬(bracketed address).length > 253 := by
    simp [bracketed]
    omega
  have henclosed : isEnclosed (bracketed address) = true := by
    rw [isEnclosed, bracketed, ← List.cons_append, List.getLast?_concat]
    rfl
  have hinner : ((bracketed address).drop 1).dropLast = Ipv6.serialize address := by
    simp [bracketed]
  have hclean : IsClean (Ipv6.serialize address) := by
    intro c hc
    have hchar := hchars c hc
    unfold IsHostChar at hchar
    simp [delimiters, removed]
    omega
  have hself : usv (Ipv6.serialize address) = Ipv6.serialize address :=
    usv_eq_self _ fun c hc => by
      have hchar := hchars c hc
      unfold IsHostChar at hchar
      omega
  have hne : bracketed address ≠ [] := List.cons_ne_nil _ _
  rw [normalizeMediaHost, if_neg (by simp only [hne, hshort, htrim, hzone]; simp),
    if_pos henclosed, hinner, hostOf_clean _ hcolon hclean, hself,
    Ipv6.parse_serialize address haddress]
  rfl

/-- An accepted value passes the first tests, and its host is that of the candidate. -/
theorem normalize_spec (value host : CodeUnits)
    (hhost : normalizeMediaHost lower domainHost (some value) = some host) :
    value.length ≤ 253 ∧ hostOf lower domainHost (withoutBrackets value) = some host := by
  rw [normalizeMediaHost] at hhost
  split at hhost
  · cases hhost
  rename_i htests
  push Not at htests
  refine ⟨htests.2.1, ?_⟩
  unfold withoutBrackets
  split at hhost
  · rename_i henclosed
    rwa [if_pos henclosed]
  · rename_i henclosed
    rw [if_neg henclosed]
    split at hhost
    · cases hhost
    · exact hhost

theorem withoutBrackets_length (value : CodeUnits) :
    (withoutBrackets value).length ≤ value.length := by
  unfold withoutBrackets
  split
  · simp
    omega
  · exact Nat.le_refl _

/-- The branch of the URL parser. -/
theorem colon_bare (candidate host : CodeUnits) (hcolon : 58 ∈ candidate)
    (hclean : IsClean candidate) (hhost : hostOf lower domainHost candidate = some host) :
    IsHost candidate ∧ normalizeMediaHost lower domainHost (some host) = some host := by
  rw [hostOf_clean candidate hcolon hclean, Option.map_eq_some_iff] at hhost
  obtain ⟨address, hparse, rfl⟩ := hhost
  have haddress := (Ipv6.parse_spec _ address hparse).1
  exact ⟨IsHost.ipv6 address hparse, normalize_bracketed address haddress⟩

/-- The branch of the dotted quad. -/
theorem numeric_bare (candidate host : CodeUnits) (hcolon : 58 ∉ candidate)
    (hnumeric : isNumeric candidate = true) (hlength : candidate.length ≤ 253)
    (hhost : hostOf lower domainHost candidate = some host) :
    IsHost candidate ∧ normalizeMediaHost lower domainHost (some host) = some host := by
  have haccepted := hhost
  rw [hostOf, if_neg hcolon, if_pos hnumeric] at hhost
  simp only at hhost
  split at hhost
  · cases hhost
  rename_i htests
  cases hhost
  simp at htests
  obtain ⟨hfour, hoctets⟩ := htests
  have htext : ((candidate.splitOn 46).map number).map decimalText = candidate.splitOn 46 := by
    rw [List.map_map]
    have hsame : (candidate.splitOn 46).map (decimalText ∘ number) =
        (candidate.splitOn 46).map id := List.map_congr_left fun octet hoctet =>
      decimalText_number octet (hoctets octet hoctet).1
    exact hsame.trans (List.map_id _)
  have hquad : IsHost candidate := by
    refine IsHost.ipv4 ((candidate.splitOn 46).map number) (by simpa using hfour)
      (fun n hn => ?_) (by rw [htext, List.intercalate_splitOn])
    obtain ⟨octet, hoctet, rfl⟩ := List.mem_map.mp hn
    exact (hoctets octet hoctet).2
  have hchars : ∀ c ∈ candidate, IsHostChar c := by
    simp [isNumeric] at hnumeric
    intro c hc
    rcases hnumeric.2 c hc with hdigit | rfl
    · exact isHostChar_of_isAlnum c (by simp [isAlnum, hdigit])
    · exact Or.inl (by omega)
  have hsome : candidate ≠ [] := by
    simp [isNumeric] at hnumeric
    exact hnumeric.1
  exact ⟨hquad, by rw [normalize_text candidate hsome hlength hchars, haccepted]⟩

/-- The characters of a text whose labels pass the test. -/
theorem lower_chars (text : CodeUnits)
    (hlabels : ∀ label ∈ text.splitOn 46, isLabel label = true) :
    ∀ c ∈ text, isAlnum c = true ∨ c = 45 ∨ c = 46 := by
  intro c hc
  have hjoin : [46].intercalate (text.splitOn 46) = text := List.intercalate_splitOn 46
  rw [← hjoin] at hc
  rcases mem_intercalate c _ hc with rfl | ⟨label, hlabel, hin⟩
  · exact Or.inr (Or.inr rfl)
  · rcases (isLabel_spec label (hlabels label hlabel)).2.1 c hin with halnum | rfl
    · exact Or.inl halnum
    · exact Or.inr (Or.inl rfl)

/-- A text whose labels pass the test is its own host. -/
theorem normalize_lower (hlower : Lowers lower) (text : CodeUnits)
    (hlabels : ∀ label ∈ text.splitOn 46, isLabel label = true)
    (hlength : text.length ≤ 253) (hnumeric : isNumeric text = false) :
    normalizeMediaHost lower domainHost (some text) = some text := by
  have hchars := lower_chars text hlabels
  have hrange : ∀ c ∈ text, (97 ≤ c ∧ c ≤ 122) ∨ (48 ≤ c ∧ c ≤ 57) ∨ c = 45 ∨ c = 46 := by
    intro c hc
    simpa [isAlnum, isDigit, or_assoc] using hchars c hc
  have hself : lower text = text := by
    rw [hlower.keeps text fun c hc => by have hc' := hrange c hc; omega]
    have hid : text.map lowerUnit = text.map id := List.map_congr_left fun c hc => by
      have hc' := hrange c hc
      rw [lowerUnit, if_neg (by omega), if_neg (by omega)]
      rfl
    exact hid.trans (List.map_id _)
  have hcolon : 58 ∉ text := fun hmem => by
    have hc := hrange 58 hmem
    omega
  have hsome : text ≠ [] := fun hnil => by
    have hempty := hlabels [] (by rw [hnil]; exact List.mem_singleton.mpr rfl)
    cases hempty
  have hhost : ∀ c ∈ text, IsHostChar c := fun c hc => by
    have hc' := hrange c hc
    unfold IsHostChar
    omega
  have hall : ((text.splitOn 46).any fun label => !isLabel label) = false := by
    simpa using hlabels
  rw [normalize_text text hsome hlength hhost, hostOf, if_neg hcolon, if_neg (by simp [hnumeric])]
  simp only [hself, hall, Bool.false_eq_true, if_false, List.intercalate_splitOn]

/-- The branch of the DNS name. -/
theorem name_bare (hlower : Lowers lower) (candidate host : CodeUnits) (hcolon : 58 ∉ candidate)
    (hnumeric : isNumeric candidate = false) (hkelvin : 0x212A ∉ candidate)
    (hlength : candidate.length ≤ 253) (hhost : hostOf lower domainHost candidate = some host) :
    IsHost candidate ∧ normalizeMediaHost lower domainHost (some host) = some host := by
  rw [hostOf, if_neg hcolon, if_neg (by simp [hnumeric])] at hhost
  simp only [List.intercalate_splitOn] at hhost
  split at hhost
  · cases hhost
  rename_i hany
  cases hhost
  have hlabels : ∀ label ∈ (lower candidate).splitOn 46, isLabel label = true := by
    simpa using hany
  have hsmall : ∀ c ∈ lower candidate, c < 128 := fun c hc => by
    have hchar := lower_chars _ hlabels c hc
    simp [isAlnum, isDigit] at hchar
    omega
  have hascii : ∀ c ∈ candidate, c < 128 := fun c hc => by
    rcases hlower.ascii candidate hsmall c hc with hlt | rfl
    · exact hlt
    · exact absurd hc hkelvin
  have hmap := hlower.keeps candidate fun c hc => Or.inl (hascii c hc)
  have hname : IsHost candidate := by
    refine IsHost.name (candidate.splitOn 46) (List.splitOn_ne_nil 46 candidate)
      (fun label hlabel => ?_) (List.intercalate_splitOn 46).symm
    refine isDnsLabel_of_lower label (fun c hc => hascii c ?_) (hlabels _ ?_)
    · have hjoin : [46].intercalate (candidate.splitOn 46) = candidate :=
        List.intercalate_splitOn 46
      rw [← hjoin]
      exact mem_intercalate_of_mem c label _ hlabel hc
    · rw [hmap, splitOn_lower candidate hascii]
      exact List.mem_map_of_mem hlabel
  exact ⟨hname, normalize_lower hlower _ hlabels (by rw [hmap, List.length_map]; exact hlength)
    (by rw [hmap, isNumeric_lower candidate hascii, hnumeric])⟩

end Accepted

/-! ## Bare hosts, exactly -/

/-- An accepted value is a bare host, and its host is kept, exactly when it is harmless. -/
theorem bareHost_iff (lower : CodeUnits → CodeUnits) (domainHost : CodePoints → Option CodePoints)
    (hlower : Lowers lower) (value host : CodeUnits)
    (hhost : normalizeMediaHost lower domainHost (some value) = some host) :
    BareHost lower domainHost value host ↔ Harmless value := by
  obtain ⟨hlength, hcandidate⟩ := normalize_spec value host hhost
  have hshort : (withoutBrackets value).length ≤ 253 :=
    (withoutBrackets_length value).trans hlength
  constructor
  · intro hbare
    unfold Harmless
    split
    · intro c hc
      constructor
      · intro hin
        exact hbare.plain c hc (List.mem_append_left [37] hin)
      · intro hin
        simp [removed] at hin
        have hchar := hbare.isHost.isHostChar c hc (by omega)
        unfold IsHostChar at hchar
        omega
    · intro hkelvin
      have hchar := hbare.isHost.isHostChar 0x212A hkelvin (by omega)
      unfold IsHostChar at hchar
      omega
  · intro hharmless
    unfold Harmless at hharmless
    have hspec : IsHost (withoutBrackets value) ∧
        normalizeMediaHost lower domainHost (some host) = some host := by
      split at hharmless
      · rename_i hcolon
        exact colon_bare _ host hcolon hharmless hcandidate
      · rename_i hcolon
        cases hnumeric : isNumeric (withoutBrackets value) with
        | true => exact numeric_bare _ host hcolon hnumeric hshort hcandidate
        | false =>
            exact name_bare hlower _ host hcolon hnumeric hharmless hshort hcandidate
    exact ⟨hspec.1.plain, hspec.1, hspec.2⟩

/-- Small letters, character by character. -/
theorem lowers_map : Lowers (List.map lowerUnit) where
  keeps := fun text _ => rfl
  ascii := by
    intro text hsmall c hc
    have hunit := hsmall (lowerUnit c) (List.mem_map_of_mem hc)
    unfold lowerUnit at hunit
    split at hunit
    · omega
    · split at hunit
      · rename_i hkelvin
        exact Or.inr hkelvin
      · exact Or.inl hunit

theorem bareHost_ipv6 :
    normalizeMediaHost (List.map lowerUnit) (fun _ => none) (some (points "2001:db8::1")) =
        some (points "[2001:db8::1]") ∧
      (BareHost (List.map lowerUnit) (fun _ => none) (points "2001:db8::1")
          (points "[2001:db8::1]") ↔
        Harmless (points "2001:db8::1")) := by
  have hhost : normalizeMediaHost (List.map lowerUnit) (fun _ => none)
      (some (points "2001:db8::1")) = some (points "[2001:db8::1]") := by
    rw [points_ofList, points_ofList]
    decide +kernel
  exact ⟨hhost, bareHost_iff (List.map lowerUnit) (fun _ => none) lowers_map _ _ hhost⟩

/-- A port and a path in the brackets are accepted. -/
theorem accepts_port_path :
    normalizeMediaHost (List.map lowerUnit) (fun _ => none) (some (points "[::1]:80/x]")) =
        some (points "[::1]") ∧
      ¬BareHost (List.map lowerUnit) (fun _ => none) (points "[::1]:80/x]") (points "[::1]") := by
  rw [points_ofList, points_ofList]
  refine ⟨by decide +kernel, fun hbare => ?_⟩
  exact hbare.plain 47 (by decide) (by decide)

end LearnApue.Gateway.MediaHost
