import LearnApue.Gateway.Config

set_option autoImplicit false

/-!
# Gateway: recording capacity (`recording_status.h`, `recording_status.c`)

What `gw_recording_snapshot_read` makes of the configuration and of the answer of
`statvfs`.  Missing storage is a state, not an error.
-/

namespace LearnApue.Gateway

open LearnApue.Foundation

/-- `gw_recording_state`. -/
inductive GwRecordingState where
  | disabled
  | ok
  | lowSpace
  | unavailable
  deriving DecidableEq, Repr

/-- `gw_recording_state_string`. -/
def gwRecordingStateString : GwRecordingState → Bytes
  | .disabled => ascii "disabled"
  | .ok => ascii "ok"
  | .lowSpace => ascii "low_space"
  | .unavailable => ascii "unavailable"

/-- `gw_recording_snapshot`. -/
structure GwRecordingSnapshot where
  state : GwRecordingState
  enabled : Bool
  filesystemAvailable : Bool
  totalBytes : Nat
  availableBytes : Nat
  minFreeBytes : Nat
  deriving DecidableEq

/-- What `statvfs` reports. -/
structure Statvfs where
  frsize : Nat
  bsize : Nat
  blocks : Nat
  bavail : Nat

/-- `multiply_u64`. -/
def multiplyU64 (first second : Nat) : Option Nat :=
  if first ≠ 0 ∧ second > (2 ^ 64 - 1) / first then none else some (first * second)

/-- `gw_recording_snapshot_read`, with what `statvfs` answers for the directory. -/
def gwRecordingSnapshotRead (config : GwRecordingConfig) (statvfs : Option Statvfs) :
    Except GwError GwRecordingSnapshot :=
  match multiplyU64 (config.minFreeMb % 2 ^ 64).toNat (1024 * 1024) with
  | none => .error (gwErrorSet .errOverflow (ascii "recording free-space threshold overflows"))
  | some minFreeBytes =>
      if !config.enabled then .ok ⟨.disabled, false, false, 0, 0, minFreeBytes⟩
      else
        match statvfs with
        | none => .ok ⟨.unavailable, true, false, 0, 0, minFreeBytes⟩
        | some filesystem =>
            let fragmentSize :=
              if filesystem.frsize ≠ 0 then filesystem.frsize else filesystem.bsize
            match multiplyU64 fragmentSize filesystem.blocks,
                multiplyU64 fragmentSize filesystem.bavail with
            | some totalBytes, some availableBytes =>
                .ok
                  { state := if availableBytes < minFreeBytes then .lowSpace else .ok
                    enabled := true
                    filesystemAvailable := true
                    totalBytes := totalBytes
                    availableBytes := availableBytes
                    minFreeBytes := minFreeBytes }
            | _, _ =>
                .error (gwErrorSet .errOverflow
                  (ascii "recording filesystem capacity overflows"))

end LearnApue.Gateway
