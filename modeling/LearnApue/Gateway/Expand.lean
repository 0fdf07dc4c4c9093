import LearnApue.Gateway.Config

set_option autoImplicit false

/-!
# Gateway: environment references (`gw_expand_environment` in `config.c`)

The loop of `gw_expand_environment` with its `source` index as the list still to
be read, and beside it the pieces a text is made of.  The result of the loop is
decided by the first piece that cannot be expanded (`firstFault`).
-/

namespace LearnApue.Gateway

open LearnApue.Foundation

/-- What `getenv` answers for each name. -/
abbrev Environment : Type := Bytes → Option Bytes

/-- An environment without variables. -/
def emptyEnvironment : Environment := fun _ => none

/-- `sizeof(name)` in `gw_expand_environment`. -/
def nameCap : Nat := 128

/-! ## The transcription -/

/-- `input[source] == '$' && input[source + 1] == '{'`. -/
def opensReference (b : Byte) (rest : Bytes) : Bool :=
  b == byte '$' && rest.head? == some (byte '{')

/-- The bytes from `name_start` to `name_end`; `rest` starts at the brace. -/
def referenceName (rest : Bytes) : Bytes := rest.tail.takeWhile fun b => b != byte '}'

/-- The test after the scan for the closing brace. -/
def badReference (rest : Bytes) : Bool :=
  (referenceName rest).length == rest.tail.length || referenceName rest == [] ||
    nameCap ≤ (referenceName rest).length

/-- The error for a reference that is not closed, empty or too long. -/
def malformedError (input : Bytes) : GwError :=
  gwErrorSet .errEnv (ascii "invalid environment reference in '" ++ input ++ ascii "'")

/-- The error for a variable that is not set. -/
def unsetError (name : Bytes) : GwError :=
  gwErrorSet .errEnv
    (ascii "required environment variable '" ++ name ++ ascii "' is not set")

/-- The error for a text that does not fit. -/
def overflowError (outputSize : Nat) : GwError :=
  gwErrorSet .errOverflow
    (ascii "expanded value exceeds " ++ decimalNat (outputSize - 1) ++ ascii " bytes")

/-- The loop: what is written to `output`, and the result.  `skip` counts the bytes
`source` has already moved past. -/
def expandLoop (environment : Environment) (input : Bytes) (outputSize : Nat) :
    Nat → Bytes → Bytes → Bytes × Except GwError Unit
  | _, output, [] => (output, .ok ())
  | skip + 1, output, _ :: rest => expandLoop environment input outputSize skip output rest
  | 0, output, b :: rest =>
      if opensReference b rest then
        if badReference rest then (output, .error (malformedError input))
        else
          match environment (referenceName rest) with
          | none => (output, .error (unsetError (referenceName rest)))
          | some value =>
              if output.length + value.length ≥ outputSize then
                (output, .error (overflowError outputSize))
              else
                expandLoop environment input outputSize ((referenceName rest).length + 2)
                  (output ++ value) rest
      else if output.length + 1 ≥ outputSize then (output, .error (overflowError outputSize))
      else expandLoop environment input outputSize 0 (output ++ [b]) rest

/-- `gw_expand_environment`: what is written to `output`, and the result. -/
def gwExpandEnvironment (environment : Environment) (input : Bytes) (outputSize : Nat) :
    Bytes × Except GwError Unit :=
  if outputSize = 0 then
    ([], .error (gwErrorSet .errArgument (ascii "invalid environment expansion arguments")))
  else expandLoop environment input outputSize 0 [] input

/-- The call in `parse_channel`, on `channel->input.url` with the buffer `expanded`. -/
def expandInputUrl (environment : Environment) (url : Bytes) : Bytes × Except GwError Unit :=
  gwExpandEnvironment environment url gwUrlCap

/-! ## The pieces of a text -/

/-- What a text consists of, left to right. -/
inductive Piece where
  | literal (b : Byte)
  | reference (name : Bytes)
  | malformed
  deriving DecidableEq, Repr

/-- The pieces of a text, up to the first malformed reference. -/
def pieces : Nat → Bytes → List Piece
  | _, [] => []
  | skip + 1, _ :: rest => pieces skip rest
  | 0, b :: rest =>
      if opensReference b rest then
        if badReference rest then [.malformed]
        else .reference (referenceName rest) :: pieces ((referenceName rest).length + 2) rest
      else .literal b :: pieces 0 rest

/-- Why a text has no expansion. -/
inductive Fault where
  | malformed
  | unset (name : Bytes)
  | overflow
  deriving DecidableEq, Repr

/-- The first piece that cannot be expanded, when `used` bytes are taken. -/
def firstFault (environment : Environment) (capacity : Nat) : Nat → List Piece → Option Fault
  | _, [] => none
  | used, .literal _ :: rest =>
      if used + 1 ≥ capacity then some .overflow
      else firstFault environment capacity (used + 1) rest
  | used, .reference name :: rest =>
      match environment name with
      | none => some (.unset name)
      | some value =>
          if used + value.length ≥ capacity then some .overflow
          else firstFault environment capacity (used + value.length) rest
  | _, .malformed :: _ => some .malformed

/-- The error reported for a fault of `input`. -/
def faultError (input : Bytes) (outputSize : Nat) : Fault → GwError
  | .malformed => malformedError input
  | .unset name => unsetError name
  | .overflow => overflowError outputSize

/-- The loop reports the first fault, and nothing else. -/
theorem expandLoop_result (environment : Environment) (input : Bytes) (outputSize skip : Nat)
    (output text : Bytes) :
    (expandLoop environment input outputSize skip output text).2 =
      match firstFault environment outputSize output.length (pieces skip text) with
      | none => .ok ()
      | some fault => .error (faultError input outputSize fault) := by
  induction text generalizing skip output with
  | nil => cases skip <;> rfl
  | cons b rest ih =>
    cases skip with
    | succ skip => exact ih skip output
    | zero =>
      rw [expandLoop, pieces]
      by_cases hopens : opensReference b rest = true
      · rw [if_pos hopens, if_pos hopens]
        by_cases hbad : badReference rest = true
        · rw [if_pos hbad, if_pos hbad]
          rfl
        · rw [if_neg hbad, if_neg hbad, firstFault]
          cases environment (referenceName rest) with
          | none => rfl
          | some value =>
            dsimp only
            split
            · rfl
            · rw [ih, List.length_append]
      · rw [if_neg hopens, if_neg hopens, firstFault]
        split
        · rfl
        · rw [ih, List.length_append]
          rfl

/-- The fault of an input URL. -/
def urlFault (environment : Environment) (url : Bytes) : Option Fault :=
  firstFault environment gwUrlCap 0 (pieces 0 url)

theorem expandInputUrl_error_iff {environment : Environment} {url : Bytes} {error : GwError} :
    (expandInputUrl environment url).2 = .error error ↔
      ∃ fault, urlFault environment url = some fault ∧ faultError url gwUrlCap fault = error := by
  unfold expandInputUrl gwExpandEnvironment urlFault
  rw [if_neg (by decide), expandLoop_result, List.length_nil]
  cases firstFault environment gwUrlCap 0 (pieces 0 url) with
  | none => simp
  | some fault => simp

end LearnApue.Gateway
