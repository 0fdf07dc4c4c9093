import LearnApue.Foundation.CString

set_option autoImplicit false

/-!
# Gateway: status codes and diagnostics (`error.h`, `error.c`)

A fallible function of the gateway returns a `gw_status` and, when the caller
passed a `gw_error`, stores the same code there with a formatted message.  Here
that is one value, `Except GwError α`: `.ok` is `GW_OK`, and the status of an
error is the code it carries.
-/

namespace LearnApue.Gateway

open LearnApue.Foundation

/-- `gw_status`. -/
inductive GwStatus where
  | ok
  | errArgument
  | errIo
  | errParse
  | errValidation
  | errEnv
  | errNoMemory
  | errOverflow
  | errNotFound
  | errConflict
  deriving DecidableEq, Repr, Inhabited

/-- `gw_status_string`. -/
def gwStatusString : GwStatus → Bytes
  | .ok => ascii "ok"
  | .errArgument => ascii "invalid argument"
  | .errIo => ascii "I/O error"
  | .errParse => ascii "parse error"
  | .errValidation => ascii "validation error"
  | .errEnv => ascii "environment error"
  | .errNoMemory => ascii "out of memory"
  | .errOverflow => ascii "size limit exceeded"
  | .errNotFound => ascii "not found"
  | .errConflict => ascii "state conflict"

/-- `GW_ERROR_CAP`. -/
def gwErrorCap : Nat := 256

/-- `gw_error`. -/
structure GwError where
  code : GwStatus
  message : Bytes
  deriving DecidableEq

/-- `gw_error_set`: `vsnprintf` keeps what fits before the terminator. -/
def gwErrorSet (code : GwStatus) (formatted : Bytes) : GwError :=
  ⟨code, truncated gwErrorCap formatted⟩

@[simp] theorem gwErrorSet_code (code : GwStatus) (formatted : Bytes) :
    (gwErrorSet code formatted).code = code := rfl

/-- The status a fallible call returns. -/
def statusOf {α : Type} : Except GwError α → GwStatus
  | .ok _ => .ok
  | .error error => error.code

@[simp] theorem statusOf_ok {α : Type} (a : α) :
    statusOf (.ok a : Except GwError α) = .ok := rfl

@[simp] theorem statusOf_error {α : Type} (error : GwError) :
    statusOf (.error error : Except GwError α) = error.code := rfl

/-- A failed system call: its `errno` and the text `strerror` gives for it. -/
structure Errno where
  code : Nat
  text : Bytes
  deriving DecidableEq

end LearnApue.Gateway
