import LearnApue.Foundation.Words
import LearnApue.Gateway.HandleConnection

set_option autoImplicit false

/-!
# Gateway: the grammar of the request line

`handle_connection` reads the first line with one `sscanf` of three bounded
fields and a fourth that must not match.  A field that is full leaves the rest of
its word to the next field, so a word that is too long is not refused but split.
Which lines the router sees is a matter of their words alone.
-/

namespace LearnApue.Gateway

open LearnApue.Foundation LearnApue.Foundation.Substring LearnApue.Foundation.Words

/-! ## The fields as words -/

/-- A bounded field on the words that are left: the front of the next one, and the
words after that. -/
def cutWord (width : Nat) : List Bytes → Option (Bytes × List Bytes)
  | [] => none
  | word :: others =>
      some (word.take width,
        if word.length ≤ width then others else word.drop width :: others)

/-- The three fields on the words of a line. -/
def scanWords (line : List Bytes) : Option (Bytes × Bytes × Bytes) :=
  match cutWord 7 line with
  | none => none
  | some (method, rest) =>
      match cutWord 2047 rest with
      | none => none
      | some (target, rest) =>
          match cutWord 15 rest with
          | none => none
          | some (version, rest) => if rest = [] then some (method, target, version) else none

/-- A bounded field reads the front of the next word and leaves the rest of it. -/
theorem cutWord_words {width : Nat} (hwidth : 0 < width) (text : Bytes) :
    cutWord width (words isSpace text) =
      (scanToken width text).map fun field => (field.1, words isSpace field.2) := by
  by_cases hskip : text.dropWhile isSpace = []
  · have hnone : scanToken width text = none := by
      unfold scanToken
      rw [hskip]
      exact if_pos List.take_nil
    rw [words_of_skip_nil hskip, hnone]
    rfl
  · have hrun : firstRun isSpace text ≠ [] := fun hnil => hskip (firstRun_eq_nil_iff.mp hnil)
    have htoken : (firstRun isSpace text).take width ≠ [] := by
      intro hnil
      rcases List.take_eq_nil_iff.mp hnil with hzero | hempty
      · omega
      · exact hrun hempty
    have hscan : scanToken width text = some ((firstRun isSpace text).take width,
        (text.dropWhile isSpace).drop ((firstRun isSpace text).take width).length) :=
      if_neg htoken
    rw [hscan, words_of_skip_ne_nil hskip, Option.map_some, cutWord, List.length_take]
    rcases le_or_gt (firstRun isSpace text).length width with hle | hlt
    · rw [min_eq_right hle, if_pos hle, ← firstRun_append, List.drop_left]
    · rw [min_eq_left hlt.le, if_neg (not_le.mpr hlt), words_cut hlt]

/-- `sscanf` sees no more of a line than its words. -/
theorem scanRequestLine_eq (line : Bytes) :
    scanRequestLine line = scanWords (words isSpace line) := by
  unfold scanRequestLine scanWords
  rw [cutWord_words (by omega)]
  cases scanToken 7 line with
  | none => rfl
  | some field =>
    obtain ⟨method, rest⟩ := field
    simp only [Option.map_some]
    rw [cutWord_words (by omega)]
    cases scanToken 2047 rest with
    | none => rfl
    | some field =>
      obtain ⟨target, rest⟩ := field
      simp only [Option.map_some]
      rw [cutWord_words (by omega)]
      cases scanToken 15 rest with
      | none => rfl
      | some field => simp only [Option.map_some, words_eq_nil_iff]

/-- A field is the next word, or as many bytes of it as the field holds. -/
theorem cutWord_eq_some {width : Nat} {line rest : List Bytes} {field : Bytes} :
    cutWord width line = some (field, rest) ↔
      (line = field :: rest ∧ field.length ≤ width) ∨
        ∃ back others, line = (field ++ back) :: others ∧ field.length = width ∧ back ≠ [] ∧
          rest = back :: others := by
  constructor
  · intro h
    cases line with
    | nil => cases h
    | cons word others =>
      obtain ⟨hfield, hrest⟩ := Prod.mk.inj (Option.some.inj h)
      rcases le_or_gt word.length width with hle | hlt
      · rw [if_pos hle] at hrest
        rw [List.take_of_length_le hle] at hfield
        exact Or.inl ⟨by rw [hfield, hrest], hfield ▸ hle⟩
      · rw [if_neg (not_le.mpr hlt)] at hrest
        refine Or.inr ⟨word.drop width, others, ?_, ?_, ?_, hrest.symm⟩
        · rw [← hfield, List.take_append_drop]
        · rw [← hfield, List.length_take]
          omega
        · rw [ne_eq, List.drop_eq_nil_iff]
          omega
  · rintro (⟨rfl, hle⟩ | ⟨back, others, rfl, hfield, hback, rfl⟩)
    · rw [cutWord, List.take_of_length_le hle, if_pos hle]
    · have hlong : ¬ (field ++ back).length ≤ width := by
        have hpos := List.length_pos_iff.mpr hback
        rw [List.length_append]
        omega
      rw [cutWord, if_neg hlong, ← hfield, List.take_left, List.drop_left]

/-! ## The lines that reach the router -/

/-- The versions that the gateway speaks. -/
def IsVersion (version : Bytes) : Prop := version = ascii "HTTP/1.1" ∨ version = ascii "HTTP/1.0"

/-- A line of three words that fit their fields. -/
def ThreeTokens (line method target : Bytes) : Prop :=
  ∃ version, IsVersion version ∧ words isSpace line = [method, target, version] ∧
    method.length ≤ 7 ∧ target.length ≤ 2047

/-- A line of fewer words that splits into a method, a target and a version: a
word is as long as the fields that it fills, and goes on into the next one. -/
def SplitTokens (line method target : Bytes) : Prop :=
  ∃ version, IsVersion version ∧
    ((words isSpace line = [method ++ target, version] ∧ method.length = 7 ∧ target ≠ [] ∧
        target.length ≤ 2047) ∨
      (words isSpace line = [method, target ++ version] ∧ method.length ≤ 7 ∧
        target.length = 2047) ∨
      (words isSpace line = [method ++ target ++ version] ∧ method.length = 7 ∧
        target.length = 2047))

theorem IsVersion.length {version : Bytes} (h : IsVersion version) : version.length = 8 := by
  rcases h with rfl | rfl
  · rfl
  · rfl

/-- What the line asks for, with the version that `sscanf` reads. -/
theorem requestLine_route_iff_scan {line method target : Bytes} :
    requestLine line = .route method target ↔
      ∃ version, IsVersion version ∧ scanRequestLine line = some (method, target, version) := by
  unfold requestLine
  cases hscan : scanRequestLine line with
  | none =>
    constructor
    · intro h
      cases h
    · rintro ⟨version, -, h⟩
      cases h
  | some fields =>
    obtain ⟨method', target', version⟩ := fields
    simp only
    split
    · rename_i hversion
      constructor
      · intro h
        cases h
      · rintro ⟨other, hother, h⟩
        cases h
        rcases hother with rfl | rfl
        · exact absurd rfl hversion.1
        · exact absurd rfl hversion.2
    · rename_i hversion
      constructor
      · intro h
        cases h
        exact ⟨version, by unfold IsVersion; tauto, rfl⟩
      · rintro ⟨other, -, h⟩
        cases h
        rfl

/-- A version behind a method and a target is the last word, or ends it. -/
theorem scanWords_eq_some {line : List Bytes} {method target version : Bytes}
    (hversion : version.length = 8) :
    scanWords line = some (method, target, version) ↔
      (line = [method, target, version] ∧ method.length ≤ 7 ∧ target.length ≤ 2047) ∨
      (line = [method ++ target, version] ∧ method.length = 7 ∧ target ≠ [] ∧
        target.length ≤ 2047) ∨
      (line = [method, target ++ version] ∧ method.length ≤ 7 ∧ target.length = 2047) ∨
      (line = [method ++ target ++ version] ∧ method.length = 7 ∧ target.length = 2047) := by
  have hne : version ≠ [] := by
    rintro rfl
    cases hversion
  have hscan : scanWords line = some (method, target, version) ↔
      ∃ rest, cutWord 7 line = some (method, rest) ∧
        cutWord 2047 rest = some (target, [version]) := by
    have hlast : ∀ rest, cutWord 15 rest = some (version, []) ↔ rest = [version] := by
      intro rest
      rw [cutWord_eq_some]
      constructor
      · rintro (⟨rfl, -⟩ | ⟨back, others, -, -, -, hrest⟩)
        · rfl
        · cases hrest
      · rintro rfl
        exact Or.inl ⟨rfl, by omega⟩
    unfold scanWords
    constructor
    · intro h
      split at h
      · cases h
      · rename_i method' rest hmethod
        split at h
        · cases h
        · rename_i target' rest' htarget
          split at h
          · cases h
          · rename_i version' rest'' hcut
            split at h
            · rename_i hnil
              cases h
              rw [hnil, hlast] at hcut
              exact ⟨rest, hmethod, hcut ▸ htarget⟩
            · cases h
    · rintro ⟨rest, hmethod, htarget⟩
      simp only [hmethod, htarget, (hlast [version]).mpr rfl, if_true]
  rw [hscan]
  constructor
  · rintro ⟨rest, hmethod, htarget⟩
    rcases cutWord_eq_some.mp htarget with ⟨rfl, ht⟩ | ⟨back, others, rfl, ht, -, hrest⟩
    · rcases cutWord_eq_some.mp hmethod with ⟨rfl, hm⟩ | ⟨back, others, rfl, hm, hback, hrest⟩
      · exact Or.inl ⟨rfl, hm, ht⟩
      · cases hrest
        exact Or.inr (Or.inl ⟨rfl, hm, hback, ht⟩)
    · cases hrest
      rcases cutWord_eq_some.mp hmethod with ⟨rfl, hm⟩ | ⟨back, others, rfl, hm, -, hrest⟩
      · exact Or.inr (Or.inr (Or.inl ⟨rfl, hm, ht⟩))
      · cases hrest
        exact Or.inr (Or.inr (Or.inr ⟨by rw [List.append_assoc], hm, ht⟩))
  · rintro (⟨rfl, hm, ht⟩ | ⟨rfl, hm, hback, ht⟩ | ⟨rfl, hm, ht⟩ | ⟨rfl, hm, ht⟩)
    · exact ⟨[target, version], cutWord_eq_some.mpr (Or.inl ⟨rfl, hm⟩),
        cutWord_eq_some.mpr (Or.inl ⟨rfl, ht⟩)⟩
    · exact ⟨[target, version],
        cutWord_eq_some.mpr (Or.inr ⟨target, [version], rfl, hm, hback, rfl⟩),
        cutWord_eq_some.mpr (Or.inl ⟨rfl, ht⟩)⟩
    · exact ⟨[target ++ version], cutWord_eq_some.mpr (Or.inl ⟨rfl, hm⟩),
        cutWord_eq_some.mpr (Or.inr ⟨version, [], rfl, ht, hne, rfl⟩)⟩
    · refine ⟨[target ++ version], cutWord_eq_some.mpr (Or.inr ⟨target ++ version, [], ?_, hm, ?_, rfl⟩),
        cutWord_eq_some.mpr (Or.inr ⟨version, [], rfl, ht, hne, rfl⟩)⟩
      · rw [List.append_assoc]
      · exact List.append_ne_nil_of_right_ne_nil _ hne

/-- The router is called for a line of three words that fit, and for a line that
splits into such fields. -/
theorem requestLine_route_iff {line method target : Bytes} :
    requestLine line = .route method target ↔
      ThreeTokens line method target ∨ SplitTokens line method target := by
  rw [requestLine_route_iff_scan]
  constructor
  · rintro ⟨version, hversion, hscan⟩
    rw [scanRequestLine_eq, scanWords_eq_some hversion.length] at hscan
    rcases hscan with hthree | hsplit
    · exact Or.inl ⟨version, hversion, hthree⟩
    · exact Or.inr ⟨version, hversion, hsplit⟩
  · rintro (⟨version, hversion, hthree⟩ | ⟨version, hversion, hsplit⟩)
    · refine ⟨version, hversion, ?_⟩
      rw [scanRequestLine_eq, scanWords_eq_some hversion.length]
      exact Or.inl hthree
    · refine ⟨version, hversion, ?_⟩
      rw [scanRequestLine_eq, scanWords_eq_some hversion.length]
      exact Or.inr hsplit

/-- Every other line is refused. -/
theorem requestLine_cases (line : Bytes) :
    (∃ method target, requestLine line = .route method target) ∨
      requestLine line = invalidRequestLine := by
  unfold requestLine
  split
  · exact Or.inr rfl
  · rename_i method target version _
    split
    · exact Or.inr rfl
    · exact Or.inl ⟨method, target, rfl⟩

/-! ## Requests -/

/-- The grammar of a first line: the router is called exactly for three words of
which the first two fit and the third is a version, with the first two words,
and every other line is answered with 400. -/
structure MeetsGrammar (line : Bytes) (outcome : RequestOutcome) : Prop where
  routes : ∀ method target, outcome = .route method target ↔ ThreeTokens line method target
  refuses : (∀ method target, ¬ ThreeTokens line method target) →
    ∃ code message, outcome = .error 400 code message

/-- A line of three words is no line of fewer. -/
theorem ThreeTokens.not_splitTokens {line method target method' target' : Bytes}
    (h : ThreeTokens line method target) : ¬ SplitTokens line method' target' := by
  obtain ⟨version, -, hthree, -⟩ := h
  rintro ⟨version', -, ⟨htwo, -⟩ | ⟨htwo, -⟩ | ⟨hone, -⟩⟩
  · rw [hthree] at htwo
    cases htwo
  · rw [hthree] at htwo
    cases htwo
  · rw [hthree] at hone
    cases hone

theorem meetsGrammar_iff (line : Bytes) :
    MeetsGrammar line (requestLine line) ↔
      ∀ method target, ¬ SplitTokens line method target := by
  constructor
  · intro hmeets method target hsplit
    have hroute := requestLine_route_iff.mpr (Or.inr hsplit)
    exact ((hmeets.routes method target).mp hroute).not_splitTokens hsplit
  · intro hsplit
    have hroutes : ∀ method target,
        requestLine line = .route method target ↔ ThreeTokens line method target := by
      intro method target
      rw [requestLine_route_iff]
      exact or_iff_left (hsplit method target)
    refine ⟨hroutes, fun hnone => ?_⟩
    rcases requestLine_cases line with ⟨method, target, hroute⟩ | hinvalid
    · exact absurd ((hroutes method target).mp hroute) (hnone method target)
    · exact ⟨_, _, hinvalid⟩

/-- The first line of a buffer in which the header ends decides. -/
theorem bufferOutcome_eq {request line rest : Bytes}
    (hheader : headerTerminator <:+: cString request)
    (hline : strstr request lineTerminator = some (line, rest)) :
    bufferOutcome request = requestLine line := by
  have hfinds : ∀ {needle text : Bytes}, needle <:+: text → strstr text needle ≠ none := by
    intro needle text htext heq
    exact strstr_eq_none_iff.mp heq htext
  have hterminators : lineTerminator <+: headerTerminator := ⟨lineTerminator, rfl⟩
  obtain ⟨⟨line', rest'⟩, hfound⟩ :=
    Option.ne_none_iff_exists'.mp (hfinds (hterminators.isInfix.trans hheader))
  obtain ⟨after, hsame⟩ := strstr_of_prefix hfound (cString_prefix_buffer request)
  rw [hline] at hsame
  cases hsame
  unfold bufferOutcome
  rw [if_neg (fun h => hfinds hheader h.2), hfound]

/-- The grammar of the request line.  A request whose header was read meets it
exactly when its first line does not split: the first word goes on behind its
seventh byte with the target, the second one behind its 2047th byte with the
version, or both. -/
theorem request_line_grammar {arrivals : List Arrival} {request line rest : Bytes}
    (hread : readRequest [] arrivals = some request)
    (hheader : headerTerminator <:+: cString request)
    (hline : strstr request lineTerminator = some (line, rest)) :
    MeetsGrammar line (requestOutcome arrivals) ↔
      ∀ method target, ¬ SplitTokens line method target := by
  have houtcome : requestOutcome arrivals = requestLine line := by
    unfold requestOutcome
    rw [hread]
    exact bufferOutcome_eq hheader hline
  rw [houtcome]
  exact meetsGrammar_iff line

/-- A plain request line meets the grammar. -/
theorem request_line_grammar_get :
    MeetsGrammar (ascii "GET / HTTP/1.1")
      (requestOutcome [.data (ascii "GET / HTTP/1.1\r\n\r\n")]) := by
  have hmeets := @request_line_grammar [.data (ascii "GET / HTTP/1.1\r\n\r\n")]
    (ascii "GET / HTTP/1.1\r\n\r\n") (ascii "GET / HTTP/1.1") (ascii "\r\n")
    (by decide +kernel) (by decide +kernel) (by decide +kernel)
  rw [hmeets]
  intro method target
  have hthree : ThreeTokens (ascii "GET / HTTP/1.1") (ascii "GET") (ascii "/") :=
    ⟨ascii "HTTP/1.1", Or.inl rfl, by decide +kernel, by decide, by decide⟩
  exact hthree.not_splitTokens

/-- A method of seven bytes takes its target from the same word. -/
theorem request_line_grammar_counterexample :
    requestOutcome [.data (ascii "OPTIONS/api/health HTTP/1.1\r\n\r\n")] =
        .route (ascii "OPTIONS") (ascii "/api/health") ∧
      ¬ MeetsGrammar (ascii "OPTIONS/api/health HTTP/1.1")
        (requestOutcome [.data (ascii "OPTIONS/api/health HTTP/1.1\r\n\r\n")]) := by
  have hroute : requestOutcome [.data (ascii "OPTIONS/api/health HTTP/1.1\r\n\r\n")] =
      .route (ascii "OPTIONS") (ascii "/api/health") := by decide +kernel
  have htwo : words isSpace (ascii "OPTIONS/api/health HTTP/1.1") =
      [ascii "OPTIONS/api/health", ascii "HTTP/1.1"] := by decide +kernel
  refine ⟨hroute, fun hmeets => ?_⟩
  obtain ⟨version, -, hthree, -⟩ := (hmeets.routes _ _).mp hroute
  rw [htwo] at hthree
  cases hthree

end LearnApue.Gateway
