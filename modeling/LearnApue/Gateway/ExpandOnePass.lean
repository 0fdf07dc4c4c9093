import LearnApue.Gateway.ConfigParse

set_option autoImplicit false

/-!
# Gateway: expansion is substitution in one pass

What `gw_expand_environment` is for, said without its cursors: a scan walks over
the text from left to right, copies what opens no reference, and puts the value of
the variable in the place of each reference.  A scan stops where a position fails:
at a reference that is not closed, has no good name or names no variable, or where
the text no longer fits.
-/

namespace LearnApue.Gateway

open LearnApue.Foundation

/-! ## The scan -/

/-- The text starts with a dollar sign and an opening brace. -/
def StartsReference (text : Bytes) : Prop := [byte '$', byte '{'] <+: text

/-- A reference at the front of a text: its name of 1 to 127 bytes, the value of
the variable, and the text behind the brace that closes it. -/
structure ReferenceAt (environment : Environment) (text name value rest : Bytes) : Prop where
  shape : text = byte '$' :: byte '{' :: (name ++ byte '}' :: rest)
  closes : byte '}' ∉ name
  named : 1 ≤ name.length
  short : name.length ≤ 127
  variable_set : environment name = some value

/-- What a scan of the input has substituted so far, and what is left to read. -/
inductive Scanned (environment : Environment) (input : Bytes) : Bytes → Bytes → Prop
  | start : Scanned environment input [] input
  | literal {text rest : Bytes} {b : Byte} : Scanned environment input text (b :: rest) →
      ¬ StartsReference (b :: rest) → Scanned environment input (text ++ [b]) rest
  | reference {text left name value rest : Bytes} : Scanned environment input text left →
      ReferenceAt environment left name value rest →
      Scanned environment input (text ++ value) rest

/-- Where a scan that has substituted `text` cannot go on, and with which status. -/
inductive PositionFails (environment : Environment) (outputSize : Nat) (text : Bytes) :
    Bytes → GwStatus → Prop
  | reference {left : Bytes} : StartsReference left →
      (∀ name value rest, ¬ ReferenceAt environment left name value rest) →
      PositionFails environment outputSize text left .errEnv
  | literal {b : Byte} {rest : Bytes} : ¬ StartsReference (b :: rest) →
      outputSize ≤ text.length + 1 →
      PositionFails environment outputSize text (b :: rest) .errOverflow
  | value {left name value rest : Bytes} : ReferenceAt environment left name value rest →
      outputSize ≤ text.length + value.length →
      PositionFails environment outputSize text left .errOverflow

/-! ## One position of the loop -/

theorem opensReference_iff {b : Byte} {rest : Bytes} :
    opensReference b rest = true ↔ StartsReference (b :: rest) := by
  unfold opensReference StartsReference
  rw [List.cons_prefix_cons, Bool.and_eq_true, beq_iff_eq, beq_iff_eq]
  cases rest with
  | nil =>
    refine and_congr eq_comm ⟨fun h => (nomatch h), fun h => ?_⟩
    exact absurd (List.prefix_nil.mp h) (List.cons_ne_nil _ _)
  | cons c rest =>
    rw [List.head?_cons, Option.some.injEq, List.cons_prefix_cons]
    exact and_congr eq_comm ⟨fun h => ⟨h.symm, List.nil_prefix⟩, fun h => h.1.symm⟩

theorem expandLoop_skip (environment : Environment) (input : Bytes) (outputSize : Nat)
    (output : Bytes) (skip : Nat) (text : Bytes) :
    expandLoop environment input outputSize skip output text =
      expandLoop environment input outputSize 0 output (text.drop skip) := by
  induction skip generalizing text with
  | zero => rfl
  | succ skip ih =>
    cases text with
    | nil => rfl
    | cons b rest => exact ih rest

/-- A byte that opens no reference is copied, or does not fit. -/
theorem expandLoop_literal {environment : Environment} {input : Bytes} {outputSize : Nat}
    {output rest : Bytes} {b : Byte} (h : ¬ StartsReference (b :: rest)) :
    expandLoop environment input outputSize 0 output (b :: rest) =
      if output.length + 1 ≥ outputSize then (output, .error (overflowError outputSize))
      else expandLoop environment input outputSize 0 (output ++ [b]) rest := by
  rw [expandLoop, if_neg (fun hopens => h (opensReference_iff.mp hopens))]

/-- The bytes up to the first closing brace are the name. -/
theorem referenceName_eq {name rest : Bytes} (hcloses : byte '}' ∉ name) :
    referenceName (byte '{' :: (name ++ byte '}' :: rest)) = name := by
  have hname : ∀ b ∈ name, (b != byte '}') = true := by
    intro b hb
    rw [bne_iff_ne]
    exact fun heq => hcloses (heq ▸ hb)
  unfold referenceName
  rw [List.tail_cons, List.takeWhile_append_of_pos hname, List.takeWhile_cons_of_neg (by simp),
    List.append_nil]

/-- A reference is replaced by the value of its variable, or the value does not
fit. -/
theorem expandLoop_reference {environment : Environment} {input : Bytes} {outputSize : Nat}
    {output left name value rest : Bytes} (h : ReferenceAt environment left name value rest) :
    expandLoop environment input outputSize 0 output left =
      if output.length + value.length ≥ outputSize then
        (output, .error (overflowError outputSize))
      else expandLoop environment input outputSize 0 (output ++ value) rest := by
  obtain ⟨rfl, hcloses, hnamed, hshort, hset⟩ := h
  have hopens : opensReference (byte '$') (byte '{' :: (name ++ byte '}' :: rest)) = true := rfl
  have hname := @referenceName_eq name rest hcloses
  have hgood : badReference (byte '{' :: (name ++ byte '}' :: rest)) = false := by
    unfold badReference
    rw [hname]
    cases name with
    | nil => cases hnamed
    | cons b name =>
      simp only [List.length_cons] at hshort
      simp [nameCap]
      omega
  rw [expandLoop, if_pos hopens, hgood, if_neg Bool.false_ne_true, hname, hset]
  simp only
  rw [expandLoop_skip]
  congr 2
  simp

/-- A reference that is not closed, has no good name or names no variable fails. -/
theorem expandLoop_malformed {environment : Environment} {input : Bytes} {outputSize : Nat}
    {output left : Bytes} (hstarts : StartsReference left)
    (hnone : ∀ name value rest, ¬ ReferenceAt environment left name value rest) :
    ∃ error, expandLoop environment input outputSize 0 output left = (output, .error error) ∧
      error.code = .errEnv := by
  obtain ⟨tail, rfl⟩ := hstarts
  have hopens : opensReference (byte '$') (byte '{' :: tail) = true := rfl
  show ∃ error, expandLoop environment input outputSize 0 output
    (byte '$' :: byte '{' :: tail) = (output, .error error) ∧ error.code = .errEnv
  rw [expandLoop, if_pos hopens]
  by_cases hbad : badReference (byte '{' :: tail) = true
  · rw [if_pos hbad]
    exact ⟨_, rfl, rfl⟩
  · rw [if_neg hbad]
    cases hset : environment (referenceName (byte '{' :: tail)) with
    | none => exact ⟨_, rfl, rfl⟩
    | some value =>
      -- a closed reference with a good name and a value is a reference
      exfalso
      simp only [badReference, Bool.or_eq_true, beq_iff_eq, decide_eq_true_eq, not_or] at hbad
      obtain ⟨⟨hclosed, hnamed⟩, hshort⟩ := hbad
      have hname : referenceName (byte '{' :: tail) = tail.takeWhile fun b => b != byte '}' := rfl
      rw [hname] at hclosed hnamed hshort hset
      have hcloses : byte '}' ∉ tail.takeWhile fun b => b != byte '}' := by
        intro hmem
        have hne := List.mem_takeWhile_imp hmem
        simp at hne
      obtain ⟨rest, htail⟩ : ∃ rest, tail =
          (tail.takeWhile fun b => b != byte '}') ++ byte '}' :: rest := by
        cases hdrop : tail.dropWhile fun b => b != byte '}' with
        | nil =>
          have hall := @List.takeWhile_append_dropWhile _ (fun b => b != byte '}') tail
          rw [hdrop, List.append_nil] at hall
          exact absurd (congrArg List.length hall) hclosed
        | cons c rest =>
          have hc := List.head?_dropWhile_not (fun b => b != byte '}') tail
          rw [hdrop] at hc
          have hbrace : c = byte '}' := by simpa using hc
          refine ⟨rest, ?_⟩
          have hall := @List.takeWhile_append_dropWhile _ (fun b => b != byte '}') tail
          rw [hdrop, hbrace] at hall
          exact hall.symm
      refine hnone _ value rest ⟨?_, hcloses, ?_, ?_, hset⟩
      · exact congrArg (fun text => byte '$' :: byte '{' :: text) htail
      · exact List.length_pos_iff.mpr hnamed
      · unfold nameCap at hshort
        omega

/-! ## The whole loop -/

/-- While the substituted text fits, the loop is where the scan is. -/
theorem expandLoop_scanned {environment : Environment} {input : Bytes} {outputSize : Nat}
    {text left : Bytes} (h : Scanned environment input text left)
    (hfits : text.length < outputSize) :
    expandLoop environment input outputSize 0 [] input =
      expandLoop environment input outputSize 0 text left := by
  induction h with
  | start => rfl
  | literal hscanned hplain ih =>
    rw [List.length_append, List.length_singleton] at hfits
    rw [ih (by omega), expandLoop_literal hplain, if_neg (by omega)]
  | reference hscanned hreference ih =>
    rw [List.length_append] at hfits
    rw [ih (by omega), expandLoop_reference hreference, if_neg (by omega)]

/-- Where the scan fails, the loop returns the status of that position. -/
theorem expandLoop_fails {environment : Environment} {input : Bytes} {outputSize : Nat}
    {text left : Bytes} {status : GwStatus}
    (h : PositionFails environment outputSize text left status) :
    ∃ error, expandLoop environment input outputSize 0 text left = (text, .error error) ∧
      error.code = status := by
  cases h with
  | reference hstarts hnone => exact expandLoop_malformed hstarts hnone
  | literal hplain hfull =>
    refine ⟨overflowError outputSize, ?_, rfl⟩
    rw [expandLoop_literal hplain, if_pos hfull]
  | value hreference hfull =>
    refine ⟨overflowError outputSize, ?_, rfl⟩
    rw [expandLoop_reference hreference, if_pos hfull]

/-- A scan goes on with a text that fits, fails, or is at the end of the input. -/
theorem scanned_cases {environment : Environment} {input : Bytes} {outputSize : Nat}
    {text left : Bytes} (h : Scanned environment input text left) :
    left = [] ∨ (∃ status, PositionFails environment outputSize text left status) ∨
      ∃ text' left', Scanned environment input text' left' ∧ text'.length < outputSize ∧
        left'.length < left.length := by
  cases left with
  | nil => exact Or.inl rfl
  | cons b rest =>
    right
    by_cases hstarts : StartsReference (b :: rest)
    · by_cases hreference : ∃ name value after,
          ReferenceAt environment (b :: rest) name value after
      · obtain ⟨name, value, after, hreference⟩ := hreference
        rcases Nat.lt_or_ge (text.length + value.length) outputSize with hlt | hge
        · refine Or.inr ⟨text ++ value, after, h.reference hreference, ?_, ?_⟩
          · rw [List.length_append]
            exact hlt
          · rw [hreference.shape]
            simp only [List.length_cons, List.length_append]
            omega
        · exact Or.inl ⟨_, .value hreference hge⟩
      · refine Or.inl ⟨_, .reference hstarts fun name value after hat => ?_⟩
        exact hreference ⟨name, value, after, hat⟩
    · rcases Nat.lt_or_ge (text.length + 1) outputSize with hlt | hge
      · refine Or.inr ⟨text ++ [b], rest, h.literal hstarts, ?_, Nat.lt_succ_self _⟩
        rw [List.length_append]
        exact hlt
      · exact Or.inl ⟨_, .literal hstarts hge⟩

/-- The scan ends at the end of the input with a text that fits, or at the first
position that fails. -/
theorem scanned_ends {environment : Environment} {input : Bytes} {outputSize : Nat} :
    ∀ {text left : Bytes}, Scanned environment input text left → text.length < outputSize →
      (∃ final, Scanned environment input final [] ∧ final.length < outputSize) ∨
        ∃ text' left' status, Scanned environment input text' left' ∧
          text'.length < outputSize ∧ PositionFails environment outputSize text' left' status := by
  intro text left
  induction hlength : left.length using Nat.strong_induction_on generalizing text left with
  | _ length ih =>
    intro hscanned hfits
    rcases @scanned_cases environment input outputSize text left hscanned with
      rfl | ⟨status, hfails⟩ | ⟨text', left', hscanned', hfits', hshorter⟩
    · exact Or.inl ⟨text, hscanned, hfits⟩
    · exact Or.inr ⟨text, left, status, hscanned, hfits, hfails⟩
    · exact ih left'.length (hlength ▸ hshorter) rfl hscanned' hfits'

theorem expandStoredUrl_failed {environment : Environment} {channel after : GwChannelConfig}
    {error : GwError} (h : expandStoredUrl environment channel = .error error after) :
    after = channel := by
  rcases hresult : expandInputUrl environment channel.input.url.bytes with ⟨expanded, result⟩
  cases result with
  | error reason =>
    simp only [expandStoredUrl, hresult, bind, EStateM.bind, get, getThe, MonadStateOf.get,
      EStateM.get] at h
    cases h
    rfl
  | ok _ =>
    simp only [expandStoredUrl, hresult, bind, EStateM.bind, get, getThe, MonadStateOf.get,
      EStateM.get] at h
    cases hcopy : copyToText gwUrlCap expanded with
    | none =>
      rw [hcopy] at h
      cases h
      rfl
    | some url =>
      rw [hcopy] at h
      cases h

/-- Expansion is substitution in one pass.  It succeeds exactly when the scan of
the input reaches its end with a text that fits, and this text is the output; it
fails with a status exactly when a position at which the scan arrives with a text
that fits fails with that status.  What it writes leaves room for the terminator
in every case, and a failed expansion leaves the channel as it was. -/
theorem expand_one_pass (environment : Environment) (input : Bytes) {outputSize : Nat}
    (hsize : 1 ≤ outputSize) :
    (∀ text, gwExpandEnvironment environment input outputSize = (text, .ok ()) ↔
      Scanned environment input text [] ∧ text.length < outputSize) ∧
    (∀ status, (∃ output error,
        gwExpandEnvironment environment input outputSize = (output, .error error) ∧
          error.code = status) ↔
      ∃ text left, Scanned environment input text left ∧ text.length < outputSize ∧
        PositionFails environment outputSize text left status) ∧
    (gwExpandEnvironment environment input outputSize).1.length < outputSize ∧
    ∀ channel error after, expandStoredUrl environment channel = .error error after →
      after = channel := by
  have hloop : gwExpandEnvironment environment input outputSize =
      expandLoop environment input outputSize 0 [] input := if_neg (by omega)
  have hends : ∀ {text : Bytes}, Scanned environment input text [] → text.length < outputSize →
      gwExpandEnvironment environment input outputSize = (text, .ok ()) := by
    intro text hscanned hfits
    rw [hloop, expandLoop_scanned hscanned hfits]
    rfl
  have hfails : ∀ {text left : Bytes} {status : GwStatus}, Scanned environment input text left →
      text.length < outputSize → PositionFails environment outputSize text left status →
      ∃ error, gwExpandEnvironment environment input outputSize = (text, .error error) ∧
        error.code = status := by
    intro text left status hscanned hfits hposition
    rw [hloop, expandLoop_scanned hscanned hfits]
    exact expandLoop_fails hposition
  have hscan := @scanned_ends environment input outputSize [] input .start hsize
  refine ⟨fun final => ⟨fun h => ?_, fun h => hends h.1 h.2⟩, fun status => ⟨?_, ?_⟩, ?_,
    fun _ _ _ h => expandStoredUrl_failed h⟩
  · rcases hscan with ⟨other, hscanned, hfits⟩ | ⟨text, left, status, hscanned, hfits, hposition⟩
    · have hfinal := hends hscanned hfits
      rw [h] at hfinal
      cases hfinal
      exact ⟨hscanned, hfits⟩
    · obtain ⟨error, herror, -⟩ := hfails hscanned hfits hposition
      rw [h] at herror
      cases herror
  · rintro ⟨output, error, h, rfl⟩
    rcases hscan with ⟨final, hscanned, hfits⟩ | ⟨text, left, status, hscanned, hfits, hposition⟩
    · have hfinal := hends hscanned hfits
      rw [h] at hfinal
      cases hfinal
    · obtain ⟨error', herror, rfl⟩ := hfails hscanned hfits hposition
      rw [h] at herror
      cases herror
      exact ⟨_, left, hscanned, hfits, hposition⟩
  · rintro ⟨text, left, hscanned, hfits, hposition⟩
    obtain ⟨error, herror, hcode⟩ := hfails hscanned hfits hposition
    exact ⟨text, error, herror, hcode⟩
  · rcases hscan with ⟨final, hscanned, hfits⟩ | ⟨text, left, status, hscanned, hfits, hposition⟩
    · rw [hends hscanned hfits]
      exact hfits
    · obtain ⟨error, herror, -⟩ := hfails hscanned hfits hposition
      rw [herror]
      exact hfits

/-- The environment of a test: one variable. -/
def hostEnvironment : Environment := fun name =>
  if name = ascii "HOST" then some (ascii "camera$\x7bHOST\x7d") else none

/-- The value is copied as it is, references in it included. -/
theorem expand_one_pass_host :
    gwExpandEnvironment hostEnvironment (ascii "a$$\x7bHOST\x7d$") 64 =
        (ascii "a$camera$\x7bHOST\x7d$", .ok ()) ∧
      Scanned hostEnvironment (ascii "a$$\x7bHOST\x7d$") (ascii "a$camera$\x7bHOST\x7d$") [] := by
  have hrun : gwExpandEnvironment hostEnvironment (ascii "a$$\x7bHOST\x7d$") 64 =
      (ascii "a$camera$\x7bHOST\x7d$", .ok ()) := by decide +kernel
  exact ⟨hrun, (((expand_one_pass hostEnvironment (ascii "a$$\x7bHOST\x7d$")
    (show 1 ≤ 64 by decide)).1 _).mp hrun).1⟩

end LearnApue.Gateway
