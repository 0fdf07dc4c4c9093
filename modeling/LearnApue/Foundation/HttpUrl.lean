import LearnApue.Foundation.Ipv6

set_option autoImplicit false

/-!
# The host of an http URL

How the URL standard reads the host of a URL that starts with `http://`.  The text up to
the first `/`, `\`, `?` or `#` is the authority; what stands before its last `@` is
credentials; a `:` outside square brackets ends the host and starts the port.  A host in
square brackets is an IPv6 address.  Every other host is a domain, and its parser is a
parameter.

A string is the list of its UTF-16 code units; the URL parser sees its scalar values.
-/

namespace LearnApue.Foundation.HttpUrl

open LearnApue.Foundation.Ipv6 (CodePoints)

/-- The UTF-16 code units of a string. -/
abbrev CodeUnits : Type := List Nat

/-! ## Scalar values -/

/-- A leading surrogate. -/
def isHigh (unit : Nat) : Bool := 0xD800 ≤ unit && unit ≤ 0xDBFF

/-- A trailing surrogate. -/
def isLow (unit : Nat) : Bool := 0xDC00 ≤ unit && unit ≤ 0xDFFF

/-- A unit that stands alone; a surrogate is replaced. -/
def scalar (unit : Nat) : Nat := if isHigh unit || isLow unit then 0xFFFD else unit

/-- The scalar values of a string. -/
def usv : CodeUnits → CodePoints
  | [] => []
  | [unit] => [scalar unit]
  | high :: low :: rest =>
      if isHigh high && isLow low then
        (0x10000 + (high - 0xD800) * 0x400 + (low - 0xDC00)) :: usv rest
      else scalar high :: usv (low :: rest)

theorem isHigh_of_lt (unit : Nat) (hunit : unit < 0xD800) : isHigh unit = false := by
  simp [isHigh]
  omega

theorem isLow_of_lt (unit : Nat) (hunit : unit < 0xD800) : isLow unit = false := by
  simp [isLow]
  omega

theorem scalar_of_lt (unit : Nat) (hunit : unit < 0xD800) : scalar unit = unit := by
  rw [scalar, isHigh_of_lt unit hunit, isLow_of_lt unit hunit]
  rfl

theorem eq_scalar_iff (c unit : Nat) (hc : c < 0xD800) : c = scalar unit ↔ c = unit := by
  unfold scalar
  split
  · rename_i hsurrogate
    simp [isHigh, isLow] at hsurrogate
    omega
  · exact Iff.rfl

theorem usv_cons (unit : Nat) (rest : CodeUnits) (hunit : unit < 0xD800) :
    usv (unit :: rest) = unit :: usv rest := by
  have hscalar := scalar_of_lt unit hunit
  cases rest with
  | nil => simp [usv, hscalar]
  | cons low rest => simp [usv, hscalar, isHigh_of_lt unit hunit]

theorem usv_eq_self (text : CodeUnits) (htext : ∀ unit ∈ text, unit < 0xD800) :
    usv text = text := by
  induction text with
  | nil => rfl
  | cons unit rest ih =>
      rw [usv_cons unit rest (htext unit List.mem_cons_self),
        ih fun other hother => htext other (List.mem_cons_of_mem unit hother)]

/-- Text is cut before a unit that is no surrogate. -/
theorem usv_append (text : CodeUnits) (unit : Nat) (rest : CodeUnits) (hunit : unit < 0xD800) :
    usv (text ++ unit :: rest) = usv text ++ usv (unit :: rest) := by
  induction text using usv.induct with
  | case1 => rfl
  | case2 last =>
      have hpair : (isHigh last && isLow unit) = false := by
        rw [isLow_of_lt unit hunit, Bool.and_false]
      simp only [List.cons_append, List.nil_append, usv, hpair, Bool.false_eq_true, if_false]
  | case3 high low more hpair ih =>
      simp only [List.cons_append, usv, if_pos hpair, ih]
  | case4 high low more hpair ih =>
      rw [List.cons_append] at ih
      simp only [List.cons_append, usv, if_neg hpair, ih]

/-- A scalar value below the surrogates is a unit of the string, and the other way round. -/
theorem mem_usv (c : Nat) (hc : c < 0xD800) (text : CodeUnits) : c ∈ usv text ↔ c ∈ text := by
  induction text using usv.induct with
  | case1 => simp [usv]
  | case2 last => simp [usv, eq_scalar_iff c last hc]
  | case3 high low more hpair ih =>
      have hrange := hpair
      simp [isHigh, isLow] at hrange
      rw [usv, if_pos hpair, List.mem_cons, List.mem_cons, List.mem_cons, ih]
      constructor
      · rintro (hfirst | hmore)
        · omega
        · exact Or.inr (Or.inr hmore)
      · rintro (hfirst | hsecond | hmore)
        · omega
        · omega
        · exact Or.inr hmore
  | case4 high low more hpair ih =>
      rw [usv, if_neg hpair, List.mem_cons, ih, eq_scalar_iff c high hc]
      exact List.mem_cons.symm

/-! ## The parser -/

/-- What is cut off at the end of a URL. -/
def isC0OrSpace (c : Nat) : Bool := c ≤ 32

/-- What is removed wherever it stands: tab, line feed and carriage return. -/
def removed : CodePoints := [9, 10, 13]

/-- What a special URL takes as a slash: `/` and `\`. -/
def slashes : CodePoints := [47, 92]

/-- What ends the authority of a special URL: `/`, `\`, `?` and `#`. -/
def ends : CodePoints := [47, 92, 63, 35]

/-- The host and the port behind the credentials.  Credentials without a host are refused. -/
def afterCredentials (authority : CodePoints) : Option CodePoints :=
  if 64 ∈ authority then
    let hostAndPort := (authority.reverse.takeWhile fun c => c ≠ 64).reverse
    if hostAndPort = [] then none else some hostAndPort
  else some authority

/-- The host, and the port behind the first `:` outside square brackets. -/
def splitPort (insideBrackets : Bool) : CodePoints → CodePoints × Option CodePoints
  | [] => ([], none)
  | c :: rest =>
      if c = 58 ∧ insideBrackets = false then ([], some rest)
      else
        let inside := if c = 91 then true else if c = 93 then false else insideBrackets
        (c :: (splitPort inside rest).1, (splitPort inside rest).2)

/-- A port is a number of 16 bits, or empty. -/
def portOk (port : CodePoints) : Bool :=
  (port.all fun c => 48 ≤ c && c ≤ 57) &&
    decide (port.foldl (fun number c => number * 10 + (c - 48)) 0 ≤ 65535)

/-- The text of an IPv6 address as a host. -/
def bracketed (address : List Nat) : CodePoints := 91 :: (Ipv6.serialize address ++ [93])

section Domain

variable (domainHost : CodePoints → Option CodePoints)

/-- The host parser of a special URL. -/
def hostText (host : CodePoints) : Option CodePoints :=
  match host with
  | [] => none
  | 91 :: rest =>
      if rest.getLast? = some 93 then (Ipv6.parse rest.dropLast).map bracketed else none
  | _ => domainHost host

/-- The `hostname` of the URL `http://` ++ `rest`; `none` when the URL is refused. -/
def httpHostname (rest : CodePoints) : Option CodePoints := do
  let text := (rest.rdropWhile isC0OrSpace).filter fun c => c ∉ removed
  let authority := (text.dropWhile fun c => c ∈ slashes).takeWhile fun c => c ∉ ends
  let hostAndPort ← afterCredentials authority
  let host ← hostText domainHost (splitPort false hostAndPort).1
  if (splitPort false hostAndPort).2.all portOk then some host else none

end Domain

/-! ## An authority without credentials -/

/-- What the parser gives a meaning beside the host: `/`, `\`, `?`, `#`, `@`, `[` and `]`. -/
def delimiters : CodePoints := [47, 92, 63, 35, 64, 91, 93]

/-- Text without delimiters and without what is removed. -/
def IsClean (text : CodePoints) : Prop := ∀ c ∈ text, c ∉ delimiters ∧ c ∉ removed

/-- Such an authority is the host and the port. -/
theorem httpHostname_authority (domainHost : CodePoints → Option CodePoints)
    (authority : CodePoints) (hchars : ∀ c ∈ authority, c ∉ removed ∧ c ∉ ends ∧ c ≠ 64) :
    httpHostname domainHost (authority ++ [47]) =
      (hostText domainHost (splitPort false authority).1).bind fun host =>
        if (splitPort false authority).2.all portOk then some host else none := by
  have htrimmed : (authority ++ [47]).rdropWhile isC0OrSpace = authority ++ [47] :=
    List.rdropWhile_concat_neg isC0OrSpace authority 47 (by decide)
  have hfiltered : (authority ++ [47]).filter (fun c => c ∉ removed) = authority ++ [47] := by
    rw [List.filter_eq_self]
    intro c hc
    rcases List.mem_append.mp hc with hin | hlast
    · exact decide_eq_true (hchars c hin).1
    · rw [List.mem_singleton.mp hlast]
      decide
  have hauthority : ((authority ++ [47]).dropWhile fun c => c ∈ slashes).takeWhile
      (fun c => c ∉ ends) = authority := by
    cases authority with
    | nil => decide
    | cons first rest =>
        have hfirst : first ∉ slashes := by
          have hends := (hchars first List.mem_cons_self).2.1
          simp [slashes, ends] at hends ⊢
          omega
        rw [List.cons_append, List.dropWhile_cons_of_neg (by simpa using hfirst),
          ← List.cons_append, List.takeWhile_append_of_pos]
        · simp [ends]
        · intro c hc
          exact decide_eq_true (hchars c hc).2.1
  have hcredentials : 64 ∉ authority := fun hmem => (hchars 64 hmem).2.2 rfl
  simp only [httpHostname, htrimmed, hfiltered, hauthority, afterCredentials,
    if_neg hcredentials, Option.bind_eq_bind, Option.bind_some]

theorem splitPort_inside (host port : CodePoints) (hhost : ∀ c ∈ host, c ≠ 91 ∧ c ≠ 93) :
    splitPort true (host ++ 93 :: 58 :: port) = (host ++ [93], some port) := by
  induction host with
  | nil => rfl
  | cons c rest ih =>
      obtain ⟨hopen, hclose⟩ := hhost c List.mem_cons_self
      have hrest := ih fun other hother => hhost other (List.mem_cons_of_mem c hother)
      rw [List.cons_append, splitPort, if_neg (by simp)]
      simp only [hopen, hclose, if_false, hrest]
      rfl

/-- A clean text in square brackets, with a port behind, is read as an IPv6 address. -/
theorem httpHostname_bracketed (domainHost : CodePoints → Option CodePoints)
    (host port : CodePoints) (hhost : IsClean host) (hport : portOk port = true) :
    httpHostname domainHost (91 :: (host ++ 93 :: 58 :: port) ++ [47]) =
      (Ipv6.parse host).map bracketed := by
  have hclean : ∀ c ∈ host, (c ≠ 47 ∧ c ≠ 92 ∧ c ≠ 63 ∧ c ≠ 35 ∧ c ≠ 64 ∧ c ≠ 91 ∧ c ≠ 93) ∧
      c ≠ 9 ∧ c ≠ 10 ∧ c ≠ 13 := by
    intro c hc
    have hnot := hhost c hc
    simpa [delimiters, removed] using hnot
  have hdigits : ∀ c ∈ port, 48 ≤ c ∧ c ≤ 57 := by
    rw [portOk, Bool.and_eq_true, List.all_eq_true] at hport
    simpa using hport.1
  rw [httpHostname_authority]
  · have hsplit : splitPort false (91 :: (host ++ 93 :: 58 :: port)) =
        (91 :: (host ++ [93]), some port) := by
      have hbrackets : ∀ c ∈ host, c ≠ 91 ∧ c ≠ 93 := fun c hc => by
        have hnot := hclean c hc
        omega
      rw [splitPort, if_neg (by simp)]
      simp only [if_true, splitPort_inside host port hbrackets]
    simp [hsplit, hostText, hport]
  · intro c hc
    simp only [List.mem_cons, List.mem_append] at hc
    rcases hc with rfl | hin | rfl | rfl | hin
    · decide
    · have hnot := hclean c hin
      simp [removed, ends]
      omega
    · decide
    · decide
    · have hdigit := hdigits c hin
      simp [removed, ends]
      omega

end LearnApue.Foundation.HttpUrl
