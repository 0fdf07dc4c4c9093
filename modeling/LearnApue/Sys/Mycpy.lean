import LearnApue.Foundation.ByteFile
import LearnApue.Foundation.EventMachine

set_option autoImplicit false

/-!
# `mycpy`

`sys/mycpy.c`: a chunk is read into `buf` and written until nothing of it is left.
Every write starts at `buf`.  `pos` is counted up, from no value, and read by nothing,
so a state has no such field.

After a short write the next one takes the front of the chunk again.  A run copies the
file exactly when the bytes each write takes are also the next ones of the chunk
(`copies_iff_frontIsNext`); writes that take a whole chunk are of this kind.
-/

namespace LearnApue.Sys.Mycpy

open LearnApue.Foundation LearnApue.Foundation.ByteFile

/-! ## The transcription -/

/-- `BUFSIZE`. -/
def bufsize : Nat := 1024

/-- Where the program stands: at a call of its loop, or behind the loop. -/
inductive CopyAt where
  | read
  | write
  | left
deriving DecidableEq, Repr

/-- A call the program made, with what was read or written. -/
inductive Call where
  | read (result : Except Int Bytes)
  | write (result : Except Int Bytes)
  | perror (text : String)
deriving DecidableEq

/-- The variables of `main`, the offset of `sfd`, and the calls made. -/
structure Copy where
  point : CopyAt
  len : Int
  buf : Buffer bufsize
  offset : Nat
  calls : List Call
deriving DecidableEq

/-- What a call meets: the bytes read or how many were written, or `errno`. -/
inductive Answer where
  | read (result : Except Int Bytes)
  | write (result : Except Int Nat)
deriving DecidableEq

/-- One more call. -/
def Copy.emit (copy : Copy) (call : Call) : Copy := { copy with calls := copy.calls ++ [call] }

/-- A read that failed ends the loop. -/
def Copy.failRead (copy : Copy) (errno : Int) : Copy :=
  { (copy.emit (.read (.error errno))).emit (.perror "read") with len := -1, point := .left }

/-- A read that delivered bytes, or none at the end of the file. -/
def Copy.gotRead (copy : Copy) (data : Bytes) (h : data.length ≤ bufsize) : Copy :=
  { copy.emit (.read (.ok data)) with
    len := data.length, buf := copy.buf.store data h, offset := copy.offset + data.length,
    point := if data.length = 0 then .left else .write }

/-- A write that failed ends the inner loop only. -/
def Copy.failWrite (copy : Copy) (errno : Int) : Copy :=
  { (copy.emit (.write (.error errno))).emit (.perror "write") with point := .read }

/-- A write that took `ret` bytes. -/
def Copy.wrote (copy : Copy) (ret : Nat) : Copy :=
  { copy.emit (.write (.ok (copy.buf.slice 0 ret))) with
    len := copy.len - ret, point := if copy.len - ret > 0 then .write else .read }

/-- The program's next call on a file, where it can meet that answer. -/
def step (content : Bytes) (copy : Copy) (answer : Answer) : Option Copy :=
  match copy.point, answer with
  | .read, .read (.error errno) => some (copy.failRead errno)
  | .read, .read (.ok data) =>
      if h : Delivers content copy.offset bufsize data then some (copy.gotRead data h.length_le)
      else none
  | .write, .write (.error errno) => some (copy.failWrite errno)
  | .write, .write (.ok ret) => if (ret : Int) ≤ copy.len then some (copy.wrote ret) else none
  | _, _ => none

/-- The program at its loop: the other variables are what they were. -/
def Copy.start (fresh : Copy) : Copy := { fresh with point := .read, offset := 0, calls := [] }

/-! ## What is copied -/

/-- The bytes a call wrote. -/
def Call.written : Call → Bytes
  | .write (.ok data) => data
  | _ => []

/-- What `dfd` holds. -/
def Copy.written (copy : Copy) : Bytes := copy.calls.flatMap Call.written

/-- A call that succeeds; a write takes something. -/
def Answer.Succeeds : Answer → Prop
  | .read (.ok _) => True
  | .write (.ok ret) => 0 < ret
  | _ => False

/-- The last `len` bytes that were read. -/
def Copy.unwritten (content : Bytes) (copy : Copy) : Bytes :=
  (content.take copy.offset).drop (copy.offset - copy.len.toNat)

/-- The bytes that a write takes from the front of the buffer are the next ones of the
chunk. -/
def FrontIsNext (content : Bytes) (copy : Copy) : Answer → Prop
  | .write (.ok ret) => copy.buf.slice 0 ret <+: copy.unwritten content
  | _ => True

/-! ## One call -/

@[simp] theorem written_emit (copy : Copy) (call : Call) :
    (copy.emit call).written = copy.written ++ call.written := by
  unfold Copy.written Copy.emit
  rw [List.flatMap_append, List.flatMap_singleton]

/-- What a call of the program can be. -/
theorem step_cases {content : Bytes} {copy next : Copy} {answer : Answer}
    (h : step content copy answer = some next) :
    (copy.point = .read ∧ ∃ errno, answer = .read (.error errno) ∧ next = copy.failRead errno) ∨
    (copy.point = .read ∧ ∃ data hle, answer = .read (.ok data) ∧
      Delivers content copy.offset bufsize data ∧ next = copy.gotRead data hle) ∨
    (copy.point = .write ∧ ∃ errno, answer = .write (.error errno) ∧ next = copy.failWrite errno) ∨
    (copy.point = .write ∧ ∃ ret : Nat, answer = .write (.ok ret) ∧ (ret : Int) ≤ copy.len ∧
      next = copy.wrote ret) := by
  unfold step at h
  split at h
  · rename_i errno hpoint
    exact .inl ⟨hpoint, errno, rfl, (Option.some.inj h).symm⟩
  · rename_i data hpoint
    split at h
    · rename_i hdata
      exact .inr (.inl ⟨hpoint, data, hdata.length_le, rfl, hdata, (Option.some.inj h).symm⟩)
    · cases h
  · rename_i errno hpoint
    exact .inr (.inr (.inl ⟨hpoint, errno, rfl, (Option.some.inj h).symm⟩))
  · rename_i ret hpoint
    split at h
    · rename_i hret
      exact .inr (.inr (.inr ⟨hpoint, ret, rfl, hret, (Option.some.inj h).symm⟩))
    · cases h
  · cases h

/-- What is written stays written. -/
theorem written_prefix_step {content : Bytes} {copy next : Copy} {answer : Answer}
    (h : step content copy answer = some next) : copy.written <+: next.written := by
  have hemit : ∀ call, copy.written <+: (copy.emit call).written := fun call => by
    rw [written_emit]
    exact List.prefix_append _ _
  have htwice : ∀ call call', copy.written <+: ((copy.emit call).emit call').written :=
    fun call call' => by
      rw [written_emit]
      exact (hemit call).trans (List.prefix_append _ _)
  obtain ⟨-, errno, -, rfl⟩ | ⟨-, data, hle, -, -, rfl⟩ | ⟨-, errno, -, rfl⟩ | ⟨-, ret, -, -, rfl⟩ :=
    step_cases h
  · exact htwice _ _
  · exact hemit _
  · exact htwice _ _
  · exact hemit _

/-- What the program keeps while its calls succeed. -/
structure CopyInv (content : Bytes) (copy : Copy) : Prop where
  offset_le : copy.offset ≤ content.length
  writing : copy.point = .write →
    copy.written.length + copy.len.toNat = copy.offset ∧ 0 < copy.len ∧ copy.len ≤ bufsize
  whole : copy.point ≠ .write → copy.written.length = copy.offset
  ended : copy.point = .left → copy.offset = content.length

section Calls

variable {content : Bytes} {copy : Copy}

theorem written_gotRead (data : Bytes) (hle : data.length ≤ bufsize) :
    (copy.gotRead data hle).written = copy.written :=
  (written_emit copy _).trans (List.append_nil _)

theorem CopyInv.gotRead {data : Bytes} {hle : data.length ≤ bufsize} (hinv : CopyInv content copy)
    (hpoint : copy.point = .read) (hdata : Delivers content copy.offset bufsize data) :
    CopyInv content (copy.gotRead data hle) := by
  have hwhole := hinv.whole (by rw [hpoint]; decide)
  have hsame : (copy.gotRead data hle).written = copy.written := written_gotRead data hle
  have hend := hdata.add_length_le hinv.offset_le
  by_cases hzero : data.length = 0
  · have hnil : data = [] := List.eq_nil_of_length_eq_zero hzero
    have hleft : (copy.gotRead data hle).point = .left := if_pos hzero
    refine ⟨hend, by rw [hleft]; nofun, fun _ => ?_, fun _ => ?_⟩
    · rw [hsame, hwhole]
      show copy.offset = copy.offset + data.length
      omega
    · show copy.offset + data.length = content.length
      subst hnil
      have hatEnd := congrArg List.length (hdata.atEnd (by decide))
      rw [List.length_take] at hatEnd
      omega
  · have hwrite : (copy.gotRead data hle).point = .write := if_neg hzero
    refine ⟨hend, fun _ => ⟨?_, ?_, ?_⟩, by rw [hwrite]; nofun, by rw [hwrite]; nofun⟩
    · rw [hsame, hwhole]
      rfl
    · show 0 < (data.length : Int)
      omega
    · show (data.length : Int) ≤ bufsize
      omega

theorem written_wrote (ret : Nat) :
    (copy.wrote ret).written = copy.written ++ copy.buf.slice 0 ret :=
  written_emit copy _

theorem CopyInv.wrote {ret : Nat} (hinv : CopyInv content copy) (hpoint : copy.point = .write)
    (hret : (ret : Int) ≤ copy.len) : CopyInv content (copy.wrote ret) := by
  obtain ⟨hlength, hpos, hsize⟩ := hinv.writing hpoint
  have hwritten : (copy.wrote ret).written.length = copy.written.length + ret := by
    rw [written_wrote, List.length_append, copy.buf.length_slice (by omega)]
  have hlen : (copy.wrote ret).len = copy.len - ret := rfl
  have hoffset : (copy.wrote ret).offset = copy.offset := rfl
  by_cases hmore : copy.len - ret > 0
  · have hwrite : (copy.wrote ret).point = .write := if_pos hmore
    refine ⟨hinv.offset_le, fun _ => ?_, by rw [hwrite]; nofun, by rw [hwrite]; nofun⟩
    rw [hwritten, hlen, hoffset]
    omega
  · have hread : (copy.wrote ret).point = .read := if_neg hmore
    refine ⟨hinv.offset_le, by rw [hread]; nofun, fun _ => ?_, by rw [hread]; nofun⟩
    rw [hwritten, hoffset]
    omega

/-- Every call that succeeds keeps the invariant. -/
theorem CopyInv.step {next : Copy} {answer : Answer} (hinv : CopyInv content copy)
    (hok : answer.Succeeds) (h : step content copy answer = some next) : CopyInv content next := by
  obtain ⟨-, errno, rfl, -⟩ | ⟨hpoint, data, hle, -, hdata, rfl⟩ | ⟨-, errno, rfl, -⟩ |
    ⟨hpoint, ret, -, hret, rfl⟩ := step_cases h
  · exact hok.elim
  · exact hinv.gotRead hpoint hdata
  · exact hok.elim
  · exact hinv.wrote hpoint hret

/-- What is written stays the front of the file exactly when the write took the next
bytes of the chunk. -/
theorem frontIsNext_iff {ret : Nat} (hinv : CopyInv content copy) (hpoint : copy.point = .write)
    (hret : (ret : Int) ≤ copy.len) (hwritten : copy.written <+: content) :
    FrontIsNext content copy (.write (.ok ret)) ↔ (copy.wrote ret).written <+: content := by
  obtain ⟨hlength, hpos, hsize⟩ := hinv.writing hpoint
  have hslice : (copy.buf.slice 0 ret).length = ret := copy.buf.length_slice (by omega)
  have hstart : copy.offset - copy.len.toNat = copy.written.length := by omega
  obtain ⟨rest, rfl⟩ := hwritten
  have hunwritten : copy.unwritten (copy.written ++ rest) = rest.take copy.len.toNat := by
    rw [Copy.unwritten, hstart, List.drop_take, List.drop_left]
    congr 1
    omega
  rw [FrontIsNext, hunwritten, written_wrote, List.prefix_append_right_inj,
    List.prefix_take_iff, hslice]
  exact and_iff_left (by omega)

/-- What is written stays the front of the file while the writes take the next bytes. -/
theorem prefix_step {next : Copy} {answer : Answer} (hinv : CopyInv content copy)
    (hok : answer.Succeeds) (hfront : FrontIsNext content copy answer)
    (hwritten : copy.written <+: content) (h : Mycpy.step content copy answer = some next) :
    next.written <+: content := by
  obtain ⟨-, errno, rfl, -⟩ | ⟨-, data, hle, -, -, rfl⟩ | ⟨-, errno, rfl, -⟩ |
    ⟨hpoint, ret, rfl, hret, rfl⟩ := step_cases h
  · exact hok.elim
  · rw [written_gotRead]
    exact hwritten
  · exact hok.elim
  · exact (frontIsNext_iff hinv hpoint hret hwritten).mp hfront

end Calls

/-! ## Runs -/

theorem copyInv_start (content : Bytes) (fresh : Copy) : CopyInv content fresh.start where
  offset_le := Nat.zero_le _
  writing := nofun
  whole := fun _ => rfl
  ended := nofun

theorem meets_succeeds (content : Bytes) (fresh : Copy) {answers : List Answer}
    (hok : ∀ answer ∈ answers, answer.Succeeds) :
    EventMachine.Meets (step content) (fun _ answer => answer.Succeeds) fresh.start answers :=
  EventMachine.meets_of_forall fun before answer rest _ hanswers _ =>
    hok answer (by rw [hanswers]; simp)

theorem copyInv_run {content : Bytes} {fresh : Copy} {answers : List Answer}
    (hok : ∀ answer ∈ answers, answer.Succeeds) :
    CopyInv content (EventMachine.run (step content) fresh.start answers) :=
  (meets_succeeds content fresh hok).run_induction (CopyInv content) (fun _ _ _ hinv hs h => hinv.step hs h)
    (copyInv_start content fresh)

/-- What is written stays written, in a run. -/
theorem written_prefix_run (content : Bytes) (copy : Copy) (answers : List Answer) :
    copy.written <+: (EventMachine.run (step content) copy answers).written :=
  @EventMachine.run_induction _ _ (step content) (fun later => copy.written <+: later.written)
    (fun _ _ _ hwritten h => hwritten.trans (written_prefix_step h)) answers copy List.prefix_rfl

/-- A write that takes all of its chunk. -/
def TakesAll (copy : Copy) : Answer → Prop
  | .write (.ok ret) => (ret : Int) = copy.len
  | _ => True

/-- The bytes at the front of the buffer are the ones to be written. -/
def Fresh (content : Bytes) (copy : Copy) : Prop :=
  copy.point = .write → copy.buf.slice 0 copy.len.toNat = copy.unwritten content

theorem fresh_gotRead {content data : Bytes} {copy : Copy} {hle : data.length ≤ bufsize}
    (hinv : CopyInv content copy) (hdata : Delivers content copy.offset bufsize data) :
    Fresh content (copy.gotRead data hle) := by
  intro _
  have hstart : copy.offset + data.length - data.length = (content.take copy.offset).length := by
    rw [List.length_take, min_eq_left hinv.offset_le]
    omega
  show (copy.buf.store data hle).slice 0 data.length =
    (content.take (copy.offset + data.length)).drop (copy.offset + data.length - data.length)
  rw [Buffer.slice_store, ← hdata.take_append, hstart, List.drop_left]

/-- A run whose writes all take their chunk copies the file. -/
theorem frontIsNext_of_takesAll {content : Bytes} {fresh : Copy} {answers : List Answer}
    (hok : ∀ answer ∈ answers, answer.Succeeds)
    (hall : EventMachine.Meets (step content) TakesAll fresh.start answers) :
    EventMachine.Meets (step content) (FrontIsNext content) fresh.start answers := by
  have hboth := (meets_succeeds content fresh hok).and hall
  refine hboth.of_inv (fun copy => CopyInv content copy ∧ Fresh content copy) ?_
    ⟨copyInv_start content fresh, nofun⟩
  rintro copy answer next ⟨hinv, hfresh⟩ ⟨hsucceeds, htakes⟩ hstep
  refine ⟨?_, hinv.step hsucceeds hstep, ?_⟩
  · obtain ⟨-, errno, rfl, -⟩ | ⟨-, data, -, rfl, -⟩ | ⟨-, errno, rfl, -⟩ |
      ⟨hpoint, ret, rfl, hret, rfl⟩ := step_cases hstep
    · trivial
    · trivial
    · trivial
    · have hret : ret = copy.len.toNat := by
        have heq : (ret : Int) = copy.len := htakes
        omega
      show copy.buf.slice 0 ret <+: copy.unwritten content
      rw [hret, hfresh hpoint]
  · obtain ⟨-, errno, rfl, -⟩ | ⟨-, data, hle, -, hdata, rfl⟩ | ⟨-, errno, rfl, -⟩ |
      ⟨hpoint, ret, rfl, -, rfl⟩ := step_cases hstep
    · exact hsucceeds.elim
    · exact fresh_gotRead hinv hdata
    · exact hsucceeds.elim
    · have heq : (ret : Int) = copy.len := htakes
      have hread : (copy.wrote ret).point = .read := if_neg (by omega)
      intro hwrite
      rw [hread] at hwrite
      cases hwrite

/-- Where the calls succeed, the loop leaves a copy of the file exactly when every write
took the next bytes of its chunk. -/
theorem copies_iff_frontIsNext {content : Bytes} {fresh : Copy} {answers : List Answer}
    (hok : ∀ answer ∈ answers, answer.Succeeds)
    (hleft : (EventMachine.run (step content) fresh.start answers).point = .left) :
    (EventMachine.run (step content) fresh.start answers).written = content ↔
      EventMachine.Meets (step content) (FrontIsNext content) fresh.start answers := by
  constructor
  · intro hcopied
    refine EventMachine.meets_of_forall fun before answer rest next hanswers hstep => ?_
    subst hanswers
    have hinv : CopyInv content (EventMachine.run (step content) fresh.start before) :=
      copyInv_run fun answer hmem => hok answer (by simp [hmem])
    have hnext : next.written <+: content := by
      rw [EventMachine.run_append, EventMachine.run_cons, EventMachine.apply, hstep,
        Option.getD_some] at hcopied
      exact hcopied ▸ written_prefix_run content next rest
    obtain ⟨-, errno, rfl, -⟩ | ⟨-, data, -, rfl, -⟩ | ⟨-, errno, rfl, -⟩ |
      ⟨hpoint, ret, rfl, hret, rfl⟩ := step_cases hstep
    · trivial
    · trivial
    · trivial
    · exact (frontIsNext_iff hinv hpoint hret ((written_prefix_step hstep).trans hnext)).mpr hnext
  · intro hmeets
    have hboth := (meets_succeeds content fresh hok).and hmeets
    obtain ⟨hinv, hwritten⟩ := hboth.run_induction
      (fun copy => CopyInv content copy ∧ copy.written <+: content)
      (fun _ _ _ hcopy hcond hstep => ⟨hcopy.1.step hcond.1 hstep,
        prefix_step hcopy.1 hcond.1 hcond.2 hcopy.2 hstep⟩)
      ⟨copyInv_start content fresh, List.nil_prefix⟩
    refine hwritten.eq_of_length ?_
    rw [hinv.whole (by rw [hleft]; decide), hinv.ended hleft]

/-- Of two equal bytes it does not matter which is written twice. -/
theorem copied_aa :
    ((∀ answer ∈ [Answer.read (.ok [97, 97]), .write (.ok 1), .write (.ok 1), .read (.ok [])],
      answer.Succeeds) ∧
    (EventMachine.run (step [97, 97]) (Copy.start ⟨.read, 0, Buffer.zeros bufsize, 0, []⟩)
      [.read (.ok [97, 97]), .write (.ok 1), .write (.ok 1), .read (.ok [])]).point = .left) ∧
    ((EventMachine.run (step [97, 97]) (Copy.start ⟨.read, 0, Buffer.zeros bufsize, 0, []⟩)
      [.read (.ok [97, 97]), .write (.ok 1), .write (.ok 1), .read (.ok [])]).written = [97, 97] ↔
    EventMachine.Meets (step [97, 97]) (FrontIsNext [97, 97])
      (Copy.start ⟨.read, 0, Buffer.zeros bufsize, 0, []⟩)
      [.read (.ok [97, 97]), .write (.ok 1), .write (.ok 1), .read (.ok [])]) := by
  have hok : ∀ answer ∈ [Answer.read (.ok [97, 97]), .write (.ok 1), .write (.ok 1),
      .read (.ok [])], answer.Succeeds := by simp [Answer.Succeeds]
  have hleft : (EventMachine.run (step [97, 97])
      (Copy.start ⟨.read, 0, Buffer.zeros bufsize, 0, []⟩)
      [.read (.ok [97, 97]), .write (.ok 1), .write (.ok 1), .read (.ok [])]).point = .left := by
    decide +kernel
  exact ⟨⟨hok, hleft⟩, copies_iff_frontIsNext hok hleft⟩

/-- The two bytes of a file, written one at a time: the first is written twice. -/
theorem not_copied_ab :
    (∀ answer ∈ [Answer.read (.ok [97, 98]), .write (.ok 1), .write (.ok 1), .read (.ok [])],
      answer.Succeeds) ∧
    (EventMachine.run (step [97, 98]) (Copy.start ⟨.read, 0, Buffer.zeros bufsize, 0, []⟩)
      [.read (.ok [97, 98]), .write (.ok 1), .write (.ok 1), .read (.ok [])]).point = .left ∧
    (EventMachine.run (step [97, 98]) (Copy.start ⟨.read, 0, Buffer.zeros bufsize, 0, []⟩)
      [.read (.ok [97, 98]), .write (.ok 1), .write (.ok 1), .read (.ok [])]).written ≠
        [97, 98] :=
  ⟨by simp [Answer.Succeeds], by decide +kernel, by decide +kernel⟩

end LearnApue.Sys.Mycpy
