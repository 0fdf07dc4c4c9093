import LearnApue.Foundation.ByteFile
import LearnApue.Foundation.CInt
import LearnApue.Foundation.EventMachine

set_option autoImplicit false

/-!
# `slowcat2`

`signal/slowcat2.c`: the handler of `SIGALRM` adds a token a second, and a turn of the
loop takes one, reads into `buf` and writes out `len` bytes.

The condition of the inner loop is `len = read(sfd,buf,BUFSIZE) < 0`.  The comparison
binds tighter than the assignment, so `len` is `1` after a failed read and `0` after
every other, and `0` is what ends the outer loop.
-/

namespace LearnApue.Para.Slowcat

open LearnApue.Foundation LearnApue.Foundation.ByteFile

/-! ## The transcription -/

/-- `BUFSIZE`, which is `CPS`. -/
def bufsize : Nat := 10

/-- `BURST`. -/
def burst : Int := 100

/-- Where `main` stands: at the test of `token`, behind it with no token, in `pause`, at
the load and the store of `token--`, at a call of its loop, behind the loop, or in
`exit(1)`. -/
inductive CatAt where
  | test
  | empty
  | pause
  | load
  | store (loaded : Int)
  | read
  | write
  | left
  | exited
deriving DecidableEq, Repr

/-- A call `main` made, with what was read or written. -/
inductive Call where
  | read (result : Except Int Bytes)
  | write (result : Except Int Bytes)
  | perror (text : String)
deriving DecidableEq

/-- `token`, the variables of `main`, the offset of `sfd`, and the calls made. -/
structure Cat where
  point : CatAt
  token : Int
  len : Int
  pos : Int
  buf : Buffer bufsize
  offset : Nat
  calls : List Call
deriving DecidableEq

/-- What happens: the signal, a step of `main` without a call, or an answer to its call. -/
inductive Event where
  | sigalrm
  | go
  | read (result : Except Int Bytes)
  | write (result : Except Int Nat)
deriving DecidableEq

/-- One more call. -/
def Cat.emit (cat : Cat) (call : Call) : Cat := { cat with calls := cat.calls ++ [call] }

/-- `alrm_handler`, and a `pause` that it ends. -/
def Cat.alrmHandler (cat : Cat) : Option Cat :=
  (toInt? (cat.token + 1)).map fun token =>
    { cat with
      token := if token > burst then burst else token,
      point := if cat.point = .pause then .test else cat.point }

/-- The value of a comparison. -/
def truth (condition : Bool) : Int := if condition then 1 else 0

/-- Behind the loop around `read`, up to the loop around `write`. -/
def Cat.afterRead (cat : Cat) : Cat :=
  if cat.len = 0 then { cat with point := .left }
  else { cat with pos := 0, point := if cat.len > 0 then .write else .test }

/-- A read that returned `-1`. -/
def Cat.failRead (cat : Cat) (errno : Int) : Cat :=
  let cat := { cat with len := truth (decide ((-1 : Int) < 0)) }.emit (.read (.error errno))
  if errno = eintr then cat else (cat.emit (.perror "read()")).afterRead

/-- A read that returned the number of its bytes. -/
def Cat.gotRead (cat : Cat) (data : Bytes) (h : data.length ≤ bufsize) : Cat :=
  ({ cat with
      len := truth (decide ((data.length : Int) < 0)), buf := cat.buf.store data h,
      offset := cat.offset + data.length }.emit (.read (.ok data))).afterRead

/-- A write that failed. -/
def Cat.failWrite (cat : Cat) (errno : Int) : Cat :=
  let cat := cat.emit (.write (.error errno))
  if errno = eintr then cat else { cat.emit (.perror "write()") with point := .exited }

/-- A write that took `ret` bytes. -/
def Cat.wrote (cat : Cat) (ret : Nat) : Cat :=
  let cat := cat.emit (.write (.ok (cat.buf.slice cat.pos.toNat ret)))
  let cat := { cat with pos := cat.pos + ret, len := cat.len - ret }
  { cat with point := if cat.len > 0 then .write else .test }

/-- The next state on a file, where the event can happen. -/
def step (content : Bytes) (cat : Cat) (event : Event) : Option Cat :=
  match cat.point, event with
  | .left, _ => none
  | .exited, _ => none
  | _, .sigalrm => cat.alrmHandler
  | .test, .go => some { cat with point := if cat.token ≤ 0 then .empty else .load }
  | .empty, .go => some { cat with point := .pause }
  | .load, .go => some { cat with point := .store cat.token }
  | .store loaded, .go =>
      (toInt? (loaded - 1)).map fun token => { cat with token := token, point := .read }
  | .read, .read (.error errno) => some (cat.failRead errno)
  | .read, .read (.ok data) =>
      if h : Delivers content cat.offset bufsize data then some (cat.gotRead data h.length_le)
      else none
  | .write, .write (.error errno) => some (cat.failWrite errno)
  | .write, .write (.ok ret) => if (ret : Int) ≤ cat.len then some (cat.wrote ret) else none
  | _, _ => none

/-- `main` at its loop: `token` has whatever the signals before it left there, the other
variables are what they were. -/
def Cat.start (fresh : Cat) : Cat := { fresh with point := .test, offset := 0, calls := [] }

/-! ## What is written -/

/-- The bytes a call wrote. -/
def Call.written : Call → Bytes
  | .write (.ok data) => data
  | _ => []

/-- What `dfd` got. -/
def Cat.written (cat : Cat) : Bytes := cat.calls.flatMap Call.written

/-- Calls that succeed or are interrupted; a write takes something. -/
def Event.Succeeds : Event → Prop
  | .read (.error errno) => errno = eintr
  | .write (.error errno) => errno = eintr
  | .write (.ok ret) => 0 < ret
  | _ => True

/-! ## One event -/

@[simp] theorem written_emit (cat : Cat) (call : Call) :
    (cat.emit call).written = cat.written ++ call.written := by
  unfold Cat.written Cat.emit
  rw [List.flatMap_append, List.flatMap_singleton]

/-- `main` is not at a write, and none was made. -/
structure Quiet (cat : Cat) : Prop where
  write : cat.point ≠ .write
  exited : cat.point ≠ .exited
  written : cat.written = []

section Events

variable {cat : Cat}

theorem Quiet.alrmHandler {next : Cat} (hquiet : Quiet cat) (h : cat.alrmHandler = some next) :
    Quiet next := by
  obtain ⟨token, -, rfl⟩ := Option.map_eq_some_iff.mp h
  refine ⟨?_, ?_, hquiet.written⟩
  · show (if cat.point = .pause then CatAt.test else cat.point) ≠ .write
    split
    · nofun
    · exact hquiet.write
  · show (if cat.point = .pause then CatAt.test else cat.point) ≠ .exited
    split
    · nofun
    · exact hquiet.exited

/-- An interrupted read is made again. -/
theorem Quiet.failRead (hquiet : Quiet cat) : Quiet (cat.failRead eintr) := by
  have hagain : cat.failRead eintr = { cat with len := 1 }.emit (.read (.error eintr)) := by
    unfold Cat.failRead
    exact if_pos rfl
  rw [hagain]
  refine ⟨hquiet.write, hquiet.exited, ?_⟩
  exact (written_emit _ _).trans ((List.append_nil _).trans hquiet.written)

/-- A read that succeeded leaves `0` in `len`, and `main` behind its loop. -/
theorem gotRead_eq (data : Bytes) (h : data.length ≤ bufsize) :
    cat.gotRead data h =
      { cat.emit (.read (.ok data)) with
        len := 0, buf := cat.buf.store data h, offset := cat.offset + data.length,
        point := .left } := by
  have hlen : ¬ ((data.length : Int) < 0) := by omega
  simp [Cat.gotRead, Cat.afterRead, Cat.emit, truth, hlen]

theorem Quiet.gotRead {data : Bytes} {h : data.length ≤ bufsize} (hquiet : Quiet cat) :
    Quiet (cat.gotRead data h) := by
  rw [gotRead_eq]
  exact ⟨nofun, nofun, (written_emit cat _).trans ((List.append_nil _).trans hquiet.written)⟩

/-- While no read fails for good, `main` never comes to a write. -/
theorem Quiet.step {content : Bytes} {next : Cat} {event : Event} (hquiet : Quiet cat)
    (hok : event.Succeeds) (h : step content cat event = some next) : Quiet next := by
  unfold Slowcat.step at h
  split at h
  · cases h
  · cases h
  · exact hquiet.alrmHandler h
  · cases h
    by_cases htoken : cat.token ≤ 0
    · rw [if_pos htoken]
      exact ⟨nofun, nofun, hquiet.written⟩
    · rw [if_neg htoken]
      exact ⟨nofun, nofun, hquiet.written⟩
  · cases h
    exact ⟨nofun, nofun, hquiet.written⟩
  · cases h
    exact ⟨nofun, nofun, hquiet.written⟩
  · obtain ⟨token, -, rfl⟩ := Option.map_eq_some_iff.mp h
    exact ⟨nofun, nofun, hquiet.written⟩
  · obtain rfl := hok
    cases h
    exact hquiet.failRead
  · split at h
    · cases h
      exact hquiet.gotRead
    · cases h
  · rename_i hpoint
    exact absurd hpoint hquiet.write
  · rename_i hpoint
    exact absurd hpoint hquiet.write
  · cases h

end Events

/-! ## Runs -/

theorem quiet_run {content : Bytes} {fresh : Cat} {events : List Event}
    (hok : ∀ event ∈ events, event.Succeeds) :
    Quiet (EventMachine.run (step content) fresh.start events) := by
  have hmeets : EventMachine.Meets (step content) (fun _ event => event.Succeeds) fresh.start
      events :=
    EventMachine.meets_of_forall fun before event rest _ hevents _ =>
      hok event (by rw [hevents]; simp)
  exact hmeets.run_induction Quiet (fun _ _ _ hquiet hs h => hquiet.step hs h) ⟨nofun, nofun, rfl⟩

/-- Every file has a run whose calls succeed and whose loop ends. -/
theorem exists_run_left (content : Bytes) :
    ∃ fresh events, (∀ event ∈ events, event.Succeeds) ∧
      (EventMachine.run (step content) (Cat.start fresh) events).point = .left := by
  have hdata : Delivers content 0 bufsize (content.take bufsize) := delivers_take content 0 bufsize
  refine ⟨⟨.test, 1, 0, 0, Buffer.zeros bufsize, 0, []⟩,
    [.go, .go, .go, .read (.ok (content.take bufsize))], by simp [Event.Succeeds], ?_⟩
  have hgo : ∀ events,
      EventMachine.run (step content) (Cat.start ⟨.test, 1, 0, 0, Buffer.zeros bufsize, 0, []⟩)
        (.go :: .go :: .go :: events) =
      EventMachine.run (step content) ⟨.read, 0, 0, 0, Buffer.zeros bufsize, 0, []⟩ events :=
    fun _ => rfl
  have hread : step content ⟨.read, 0, 0, 0, Buffer.zeros bufsize, 0, []⟩
      (.read (.ok (content.take bufsize))) = some (Cat.gotRead _ _ hdata.length_le) := dif_pos hdata
  rw [hgo, EventMachine.run_cons, EventMachine.run_nil, EventMachine.apply, hread,
    Option.getD_some, gotRead_eq]

/-- The loop puts out a file, whenever it ends normally, exactly when the file is empty. -/
theorem outputs_iff_empty (content : Bytes) :
    (∀ fresh events, (∀ event ∈ events, event.Succeeds) →
      (EventMachine.run (step content) (Cat.start fresh) events).point = .left →
      (EventMachine.run (step content) (Cat.start fresh) events).written = content) ↔
    content = [] := by
  constructor
  · intro houtputs
    obtain ⟨fresh, events, hok, hleft⟩ := exists_run_left content
    rw [← houtputs fresh events hok hleft]
    exact (quiet_run hok).written
  · rintro rfl fresh events hok -
    exact (quiet_run hok).written

/-- A byte is read and none is put out. -/
theorem not_output_byte :
    (∀ event ∈ [Event.go, .go, .sigalrm, .go, .go, .go, .read (.ok [97])], event.Succeeds) ∧
    (EventMachine.run (step [97]) (Cat.start ⟨.test, 0, 0, 0, Buffer.zeros bufsize, 0, []⟩)
      [.go, .go, .sigalrm, .go, .go, .go, .read (.ok [97])]).point = .left ∧
    (EventMachine.run (step [97]) (Cat.start ⟨.test, 0, 0, 0, Buffer.zeros bufsize, 0, []⟩)
      [.go, .go, .sigalrm, .go, .go, .go, .read (.ok [97])]).written ≠ [97] :=
  ⟨by simp [Event.Succeeds], by decide +kernel, by decide +kernel⟩

end LearnApue.Para.Slowcat
