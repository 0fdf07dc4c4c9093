import LearnApue.Foundation.ByteFile
import LearnApue.Foundation.EventMachine

set_option autoImplicit false

/-!
# The machine of the relays

Four programs relay bytes between two descriptors with the same `fsm_driver`:
`adv/nonblock/relay.c`, `adv/select/relay.c`, `adv/poll/relay.c` and `adv/epoll/relay.c`.
A machine reads into its buffer, writes the buffer out in as many pieces as `write`
takes, and reads again.  `len` is what `read` returned and then what is left to write,
and `pos` is where the rest starts.

The system calls of a machine are its history.  What was read from `sfd` and what was
written to `dfd` are read off it.
-/

namespace LearnApue.Stdio

open LearnApue.Foundation LearnApue.Foundation.ByteFile

/-! ## The transcription -/

/-- `BUFSIZE`. -/
def bufsize : Nat := 1024

/-- `STATE_W`, `STATE_R`, `STATE_AUTO`, `STATE_T` and `STATE_E`.  The nonblocking relay
has no `STATE_AUTO`, and nothing sets a machine to it in the others. -/
inductive FsmState where
  | stateW
  | stateR
  | stateAuto
  | stateT
  | stateE
deriving DecidableEq, Repr

/-- `struct fsm_st`. -/
structure FsmSt where
  state : FsmState
  sfd : Int
  dfd : Int
  len : Int
  pos : Int
  buf : Buffer bufsize
  errstr : Option String
deriving DecidableEq

/-- What the kernel answers to the call a machine makes: the bytes read or how
many were written, or `errno`. -/
inductive Answer where
  | read (result : Except Int Bytes)
  | write (result : Except Int Nat)
  | nothing
deriving DecidableEq

/-- A call a machine made, with what was read or written. -/
inductive Call where
  | read (sfd : Int) (result : Except Int Bytes)
  | write (dfd : Int) (result : Except Int Bytes)
  | perror (errstr : Option String)
deriving DecidableEq

/-- What is left to write: `len` bytes from `buf + pos`. -/
def FsmSt.rest (fsm : FsmSt) : Bytes := fsm.buf.slice fsm.pos.toNat fsm.len.toNat

/-- `fsm_driver`: the machine and the calls it makes, where the kernel can give
that answer.  In `STATE_AUTO` it aborts, which is no step of the machine. -/
def fsmDriver (fsm : FsmSt) (answer : Answer) : Option (FsmSt × List Call) :=
  match fsm.state, answer with
  | .stateR, .read (.error errno) =>
      let fsm := { fsm with len := -1 }
      let next := if errno = eagain then { fsm with state := .stateR }
        else { fsm with errstr := some "read()", state := .stateE }
      some (next, [.read fsm.sfd (.error errno)])
  | .stateR, .read (.ok data) =>
      if h : data.length ≤ bufsize then
        let fsm : FsmSt := { fsm with len := data.length, buf := fsm.buf.store data h }
        let next := if fsm.len = 0 then { fsm with state := .stateT }
          else { fsm with pos := 0, state := .stateW }
        some (next, [.read fsm.sfd (.ok data)])
      else none
  | .stateW, .write (.error errno) =>
      let next := if errno = eagain then { fsm with state := .stateW }
        else { fsm with errstr := some "write()", state := .stateE }
      some (next, [.write fsm.dfd (.error errno)])
  | .stateW, .write (.ok ret) =>
      if (ret : Int) ≤ fsm.len then
        let taken := fsm.rest.take ret
        let fsm : FsmSt := { fsm with pos := fsm.pos + ret, len := fsm.len - ret }
        let next := if fsm.len > 0 then { fsm with state := .stateW }
          else { fsm with state := .stateR }
        some (next, [.write fsm.dfd (.ok taken)])
      else none
  | .stateE, .nothing => some ({ fsm with state := .stateT }, [.perror fsm.errstr])
  | .stateT, .nothing => some (fsm, [])
  | _, _ => none

/-- A machine and the calls it has made. -/
structure Machine where
  fsm : FsmSt
  calls : List Call
deriving DecidableEq

/-- One call of `fsm_driver`. -/
def Machine.step (machine : Machine) (answer : Answer) : Option Machine :=
  (fsmDriver machine.fsm answer).map fun (fsm, calls) => ⟨fsm, machine.calls ++ calls⟩

/-- A machine that `relay` has set up: the other fields are what they were. -/
def Machine.start (fsm : FsmSt) (sfd dfd : Int) : Machine :=
  ⟨{ fsm with state := .stateR, sfd := sfd, dfd := dfd }, []⟩

/-! ## What was relayed -/

/-- The bytes a call read. -/
def Call.received : Call → Bytes
  | .read _ (.ok data) => data
  | _ => []

/-- The bytes a call wrote. -/
def Call.written : Call → Bytes
  | .write _ (.ok data) => data
  | _ => []

/-- A write that failed for good. -/
def Call.brokeWrite : Call → Bool
  | .write _ (.error errno) => errno ≠ eagain
  | _ => false

/-- A read at the end of the file. -/
def Call.endOfFile : Call → Bool
  | .read _ (.ok data) => data = []
  | _ => false

/-- The bytes read so far. -/
def Machine.received (machine : Machine) : Bytes := machine.calls.flatMap Call.received

/-- The bytes written so far. -/
def Machine.written (machine : Machine) : Bytes := machine.calls.flatMap Call.written

/-- The bytes in the buffer that are to be written, or that a failed write left
there. -/
def Machine.unwritten (machine : Machine) : Bytes :=
  if machine.fsm.state = .stateW ∨ machine.calls.any Call.brokeWrite = true then
    machine.fsm.rest
  else []

end LearnApue.Stdio
