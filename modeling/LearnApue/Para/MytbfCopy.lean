import LearnApue.Foundation.ByteFile
import LearnApue.Foundation.EventMachine
import LearnApue.Para.Mytbf

set_option autoImplicit false

/-!
# The copier behind a token bucket

`mytbf_mt/main.c`: an iteration fetches tokens, reads at most as many bytes as it
fetched, gives back the tokens it did not need and writes the bytes out.  `len` is
what `read` returned, then what is left to write; `-1` is also what a read leaves
there that failed for good.

The calls of the copier are its history.  What an iteration fetched, gave back and
read, and what was written to `dfd`, are read off it.
-/

namespace LearnApue.Para.MytbfCopy

open LearnApue.Foundation LearnApue.Foundation.ByteFile LearnApue.Foundation.CondVar

/-! ## The transcription -/

/-- `BUFSIZE`. -/
def bufsize : Nat := 1024

/-- Where the copier stands: at a call of its loop, behind the loop, or in `exit(1)`. -/
inductive CopyAt where
  | fetch
  | read
  | write
  | left
  | exited
deriving DecidableEq, Repr

/-- A call the copier made, with what was read or written. -/
inductive Call where
  | fetchtoken (size : Int)
  | returntoken (size : Int)
  | read (result : Except Int Bytes)
  | write (result : Except Int Bytes)
  | perror (text : String)
  | strerror (errnum : Int)
deriving DecidableEq

/-- The variables of `main`, the offset of `sfd`, and the calls made. -/
structure Copier where
  point : CopyAt
  size : Int
  len : Int
  pos : Int
  buf : Buffer bufsize
  offset : Nat
  calls : List Call
deriving DecidableEq

/-- What a call of the copier meets: the bucket in which a fetch finds its tokens,
the bytes read or how many were written, or `errno`. -/
inductive Answer where
  | fetch (me : MytbfSt)
  | read (result : Except Int Bytes)
  | write (result : Except Int Nat)

/-- One more call. -/
def Copier.emit (copier : Copier) (call : Call) : Copier :=
  { copier with calls := copier.calls ++ [call] }

/-- The `int` that `mytbf_fetchtoken` returns. -/
def fetchSize : MytbfResult → Int
  | .tokens count => count
  | .einval => -einval
  | .ticked => 0

/-- Behind `mytbf_fetchtoken`. -/
def Copier.afterFetch (copier : Copier) (size : Int) : Copier :=
  let copier := { copier with size := size }.emit (.fetchtoken size)
  let copier := if copier.size < 0 then copier.emit (.strerror (-copier.size)) else copier
  { copier with point := .read }

/-- Behind the loop around `read`, up to the loop around `write`. -/
def Copier.afterRead (copier : Copier) : Copier :=
  if copier.len = 0 then { copier with point := .left }
  else
    let copier :=
      if copier.size - copier.len > 0 then copier.emit (.returntoken (copier.size - copier.len))
      else copier
    { copier with pos := 0, point := if copier.len > 0 then .write else .fetch }

/-- A read that failed. -/
def Copier.failRead (copier : Copier) (errno : Int) : Copier :=
  let copier := { copier with len := -1 }.emit (.read (.error errno))
  if errno = eintr then copier else (copier.emit (.perror "read()")).afterRead

/-- A read that delivered bytes, or none at the end of the file. -/
def Copier.gotRead (copier : Copier) (data : Bytes) (h : data.length ≤ bufsize) : Copier :=
  ({ copier with
      len := data.length, buf := copier.buf.store data h,
      offset := copier.offset + data.length }.emit (.read (.ok data))).afterRead

/-- A write that failed. -/
def Copier.failWrite (copier : Copier) (errno : Int) : Copier :=
  let copier := copier.emit (.write (.error errno))
  if errno = eintr then copier else { copier.emit (.perror "write()") with point := .exited }

/-- A write that took `ret` bytes. -/
def Copier.wrote (copier : Copier) (ret : Nat) : Copier :=
  let copier := copier.emit (.write (.ok (copier.buf.slice copier.pos.toNat ret)))
  let copier := { copier with pos := copier.pos + ret, len := copier.len - ret }
  { copier with point := if copier.len > 0 then .write else .fetch }

/-- The copier's next call on a file, where it can meet that answer. -/
def step (content : Bytes) (copier : Copier) (answer : Answer) : Option Copier :=
  match copier.point, answer with
  | .fetch, .fetch me =>
      match mytbfFetchtoken bufsize me with
      | .done _ result _ => some (copier.afterFetch (fetchSize result))
      | _ => none
  | .read, .read (.error errno) => some (copier.failRead errno)
  | .read, .read (.ok data) =>
      if h : Delivers content copier.offset copier.size.toNat data ∧ data.length ≤ bufsize then
        some (copier.gotRead data h.2)
      else none
  | .write, .write (.error errno) => some (copier.failWrite errno)
  | .write, .write (.ok ret) =>
      if (ret : Int) ≤ copier.len then some (copier.wrote ret) else none
  | _, _ => none

/-- The copier at its loop: the variables are what they were. -/
def Copier.start (fresh : Copier) : Copier := { fresh with point := .fetch, offset := 0, calls := [] }

/-! ## The accounts -/

/-- What one iteration fetched, gave back and read. -/
structure Iteration where
  fetched : Int
  returned : Int
  received : Int
deriving DecidableEq, Repr

/-- The accounts after one more call: a fetch begins an iteration. -/
def Iteration.next (iteration : Iteration) : Call → Iteration
  | .fetchtoken size => ⟨size, 0, 0⟩
  | .returntoken size => { iteration with returned := iteration.returned + size }
  | .read (.ok data) => { iteration with received := iteration.received + data.length }
  | _ => iteration

/-- The accounts of the iteration under way, or of the last one. -/
def Copier.iteration (copier : Copier) : Iteration := copier.calls.foldl Iteration.next ⟨0, 0, 0⟩

/-- The bytes a call wrote. -/
def Call.written : Call → Bytes
  | .write (.ok data) => data
  | _ => []

/-- The bytes written so far. -/
def Copier.written (copier : Copier) : Bytes := copier.calls.flatMap Call.written

/-- An iteration gives back no more than it fetched and, unless it ends the loop, all
but what it read; the file is written from its start. -/
structure Accounted (content : Bytes) (copier : Copier) : Prop where
  returned : copier.iteration.returned ≤ copier.iteration.fetched
  balanced : copier.point = .fetch ∨ copier.point = .write →
    copier.iteration.fetched - copier.iteration.returned = copier.iteration.received
  written : copier.written <+: content

/-- No read fails for good. -/
def Answer.ReadsOn : Answer → Prop
  | .read (.error errno) => errno = eintr
  | _ => True

/-! ## One call -/

@[simp] theorem iteration_emit (copier : Copier) (call : Call) :
    (copier.emit call).iteration = copier.iteration.next call := by
  unfold Copier.iteration Copier.emit
  rw [List.foldl_append]
  rfl

@[simp] theorem written_emit (copier : Copier) (call : Call) :
    (copier.emit call).written = copier.written ++ call.written := by
  unfold Copier.written Copier.emit
  rw [List.flatMap_append, List.flatMap_singleton]

/-- The bytes in the buffer that are to be written, or that a failed write left there. -/
def Copier.unwritten (copier : Copier) : Bytes :=
  if copier.point = .write ∨ copier.point = .exited then
    copier.buf.slice copier.pos.toNat copier.len.toNat
  else []

/-- What the copier keeps at each of its calls. -/
structure CopyInv (content : Bytes) (copier : Copier) : Prop where
  offset_le : copier.offset ≤ content.length
  conserved : copier.written ++ copier.unwritten = content.take copier.offset
  bounds : copier.point = .write → 0 ≤ copier.pos ∧ 0 < copier.len
  fetched : copier.point = .read → 0 < copier.size ∧ copier.iteration = ⟨copier.size, 0, 0⟩

theorem fetchSize_pos {me next : MytbfSt} {result : MytbfResult} {notify : Notify Unit}
    (h : mytbfFetchtoken bufsize me = .done next result notify) : 0 < fetchSize result := by
  unfold mytbfFetchtoken at h
  rw [if_neg (by decide)] at h
  split at h
  · cases h
  · rename_i htoken
    cases h
    rw [fetchSize, minInt_eq_min]
    exact lt_min (not_le.mp htoken) (by decide)

/-- What a call of the copier can be. -/
theorem step_cases {content : Bytes} {copier next : Copier} {answer : Answer}
    (h : step content copier answer = some next) :
    (copier.point = .fetch ∧ answer.ReadsOn ∧ ∃ size, 0 < size ∧ next = copier.afterFetch size) ∨
    (copier.point = .read ∧ ∃ errno, answer = .read (.error errno) ∧
      next = copier.failRead errno) ∨
    (copier.point = .read ∧ answer.ReadsOn ∧ ∃ data hle,
      Delivers content copier.offset copier.size.toNat data ∧ next = copier.gotRead data hle) ∨
    (copier.point = .write ∧ answer.ReadsOn ∧ ∃ errno, next = copier.failWrite errno) ∨
    (copier.point = .write ∧ answer.ReadsOn ∧ ∃ ret : Nat, (ret : Int) ≤ copier.len ∧
      next = copier.wrote ret) := by
  unfold step at h
  split at h
  · rename_i hpoint
    split at h
    · rename_i hfetch
      exact .inl ⟨hpoint, trivial, _, fetchSize_pos hfetch, (Option.some.inj h).symm⟩
    · cases h
  · rename_i errno hpoint
    exact .inr (.inl ⟨hpoint, errno, rfl, (Option.some.inj h).symm⟩)
  · rename_i data hpoint
    split at h
    · rename_i hdata
      exact .inr (.inr (.inl ⟨hpoint, trivial, data, hdata.2, hdata.1, (Option.some.inj h).symm⟩))
    · cases h
  · rename_i errno hpoint
    exact .inr (.inr (.inr (.inl ⟨hpoint, trivial, errno, (Option.some.inj h).symm⟩)))
  · rename_i ret hpoint
    split at h
    · rename_i hret
      exact .inr (.inr (.inr (.inr ⟨hpoint, trivial, ret, hret, (Option.some.inj h).symm⟩)))
    · cases h
  · cases h

/-! ### Where the calls lead -/

section Calls

variable {content : Bytes} {copier : Copier}

theorem afterFetch_eq {size : Int} (h : 0 < size) :
    copier.afterFetch size =
      { copier.emit (.fetchtoken size) with size := size, point := .read } := by
  have hnot : ¬ size < 0 := not_lt.mpr h.le
  simp [Copier.afterFetch, Copier.emit, hnot]

theorem failRead_eintr :
    copier.failRead eintr = { copier with len := -1 }.emit (.read (.error eintr)) := by
  unfold Copier.failRead
  exact if_pos rfl

/-- A read that failed for good has its own mark taken for a length. -/
theorem failRead_eq {errno : Int} (h : errno ≠ eintr) (hsize : 0 < copier.size) :
    copier.failRead errno =
      { ((copier.emit (.read (.error errno))).emit (.perror "read()")).emit
          (.returntoken (copier.size + 1)) with len := -1, pos := 0, point := .fetch } := by
  have hpos : 0 < copier.size + 1 := by omega
  simp [Copier.failRead, Copier.afterRead, Copier.emit, h, hpos]

/-- A read at the end of the file leaves the loop. -/
theorem gotRead_nil (h : ([] : Bytes).length ≤ bufsize) :
    copier.gotRead [] h =
      { copier.emit (.read (.ok [])) with len := 0, buf := copier.buf.store [] h, point := .left } := by
  simp [Copier.gotRead, Copier.afterRead, Copier.emit]

/-- A read that delivered bytes gives back the tokens it did not need. -/
theorem gotRead_of_ne_nil {data : Bytes} (hle : data.length ≤ bufsize) (hne : data ≠ [])
    (hsize : (data.length : Int) ≤ copier.size) :
    (copier.gotRead data hle).point = .write ∧ (copier.gotRead data hle).pos = 0 ∧
      (copier.gotRead data hle).len = data.length ∧
      (copier.gotRead data hle).buf = copier.buf.store data hle ∧
      (copier.gotRead data hle).offset = copier.offset + data.length ∧
      (copier.gotRead data hle).written = copier.written ∧
      (copier.gotRead data hle).iteration =
        ⟨copier.iteration.fetched, copier.iteration.returned + (copier.size - data.length),
          copier.iteration.received + data.length⟩ := by
  have hlen : 0 < data.length := List.length_pos_iff.mpr hne
  unfold Copier.gotRead Copier.afterRead
  rcases hsize.lt_or_eq with hlt | heq
  · simp [Copier.emit, Copier.written, Copier.iteration, Call.written, Iteration.next, hne, hlt, hlen]
  · simp [Copier.emit, Copier.written, Copier.iteration, Call.written, Iteration.next, hne, hlen,
      ← heq]

theorem failWrite_eintr :
    copier.failWrite eintr = copier.emit (.write (.error eintr)) := by
  unfold Copier.failWrite
  exact if_pos rfl

theorem failWrite_eq {errno : Int} (h : errno ≠ eintr) :
    copier.failWrite errno =
      { (copier.emit (.write (.error errno))).emit (.perror "write()") with point := .exited } := by
  unfold Copier.failWrite
  exact if_neg h

theorem wrote_eq {ret : Nat} :
    copier.wrote ret =
      { copier.emit (.write (.ok (copier.buf.slice copier.pos.toNat ret))) with
        pos := copier.pos + ret, len := copier.len - ret,
        point := if copier.len - ret > 0 then .write else .fetch } := rfl

/-- What is left of the buffer after a write. -/
theorem unwritten_wrote {ret : Nat} (hinv : CopyInv content copier) (hpoint : copier.point = .write)
    (hret : (ret : Int) ≤ copier.len) :
    copier.buf.slice copier.pos.toNat ret ++ (copier.wrote ret).unwritten = copier.unwritten := by
  obtain ⟨hpos, hlen⟩ := hinv.bounds hpoint
  have hwhole : copier.unwritten = copier.buf.slice copier.pos.toNat copier.len.toNat :=
    if_pos (.inl hpoint)
  have hrest : (copier.wrote ret).unwritten =
      copier.buf.slice (copier.pos.toNat + ret) (copier.len.toNat - ret) := by
    have hstart : (copier.pos + ret).toNat = copier.pos.toNat + ret := by omega
    have hcount : (copier.len - ret).toNat = copier.len.toNat - ret := by omega
    simp only [Copier.unwritten, wrote_eq, Copier.emit, hstart, hcount]
    by_cases hmore : copier.len - ret > 0
    · rw [if_pos hmore, if_pos (.inl rfl)]
    · have hzero : copier.len.toNat - ret = 0 := by omega
      rw [if_neg hmore, if_neg (by simp), hzero, Buffer.slice_zero]
  rw [hwhole, hrest]
  exact copier.buf.slice_split (by omega)

theorem unwritten_of_ne (hwrite : copier.point ≠ .write) (hexited : copier.point ≠ .exited) :
    copier.unwritten = [] :=
  if_neg (not_or.mpr ⟨hwrite, hexited⟩)

/-- Away from its writes the copier has written all that it read. -/
theorem CopyInv.written_eq (hinv : CopyInv content copier) (hwrite : copier.point ≠ .write)
    (hexited : copier.point ≠ .exited) : copier.written = content.take copier.offset := by
  rw [← hinv.conserved, unwritten_of_ne hwrite hexited, List.append_nil]

theorem CopyInv.of_written (hle : copier.offset ≤ content.length) (hwrite : copier.point ≠ .write)
    (hexited : copier.point ≠ .exited) (hwritten : copier.written = content.take copier.offset)
    (hfetched : copier.point = .read →
      0 < copier.size ∧ copier.iteration = ⟨copier.size, 0, 0⟩) : CopyInv content copier where
  offset_le := hle
  conserved := by rw [unwritten_of_ne hwrite hexited, List.append_nil, hwritten]
  bounds := fun hpoint => absurd hpoint hwrite
  fetched := hfetched

/-- A fetch begins an iteration. -/
theorem CopyInv.fetch {size : Int} (hinv : CopyInv content copier) (hpoint : copier.point = .fetch)
    (hsize : 0 < size) : CopyInv content (copier.afterFetch size) := by
  have hwritten := hinv.written_eq (by rw [hpoint]; decide) (by rw [hpoint]; decide)
  rw [afterFetch_eq hsize]
  refine .of_written hinv.offset_le nofun nofun ?_ fun _ => ⟨hsize, iteration_emit copier _⟩
  exact (written_emit copier _).trans ((List.append_nil _).trans hwritten)

/-- A failed read leaves the file and `dfd` alone. -/
theorem CopyInv.failRead {errno : Int} (hinv : CopyInv content copier)
    (hpoint : copier.point = .read) : CopyInv content (copier.failRead errno) := by
  obtain ⟨hsize, hiteration⟩ := hinv.fetched hpoint
  have hwritten := hinv.written_eq (by rw [hpoint]; decide) (by rw [hpoint]; decide)
  by_cases hintr : errno = eintr
  · rw [hintr, failRead_eintr]
    refine .of_written hinv.offset_le (by simp [Copier.emit, hpoint]) (by simp [Copier.emit, hpoint])
      ?_ fun _ => ⟨hsize, ?_⟩
    · exact (written_emit _ _).trans ((List.append_nil _).trans hwritten)
    · exact (iteration_emit _ _).trans hiteration
  · rw [failRead_eq hintr hsize]
    refine .of_written hinv.offset_le nofun nofun ?_ nofun
    show (((copier.emit _).emit _).emit _).written = content.take copier.offset
    simp only [written_emit, Call.written, List.append_nil, hwritten]

/-- A read puts the next bytes of the file to the front of the buffer. -/
theorem CopyInv.gotRead {data : Bytes} {hle : data.length ≤ bufsize} (hinv : CopyInv content copier)
    (hpoint : copier.point = .read)
    (hdata : Delivers content copier.offset copier.size.toNat data) :
    CopyInv content (copier.gotRead data hle) := by
  have hwritten := hinv.written_eq (by rw [hpoint]; decide) (by rw [hpoint]; decide)
  by_cases hnil : data = []
  · subst hnil
    rw [gotRead_nil]
    refine .of_written hinv.offset_le nofun nofun ?_ nofun
    exact (written_emit copier _).trans ((List.append_nil _).trans hwritten)
  · have hlen : 0 < data.length := List.length_pos_iff.mpr hnil
    have hsize : (data.length : Int) ≤ copier.size := by
      have hcount := hdata.length_le
      omega
    obtain ⟨hpoint', hpos, hlen', hbuf, hoffset, hsame, -⟩ := gotRead_of_ne_nil hle hnil hsize
    refine ⟨?_, ?_, fun _ => by omega, by rw [hpoint']; nofun⟩
    · rw [hoffset]
      exact hdata.add_length_le hinv.offset_le
    · rw [Copier.unwritten, if_pos (.inl hpoint'), hpos, hlen', hbuf, hsame, hoffset, hwritten]
      show _ ++ (copier.buf.store data hle).slice 0 data.length = _
      rw [Buffer.slice_store, hdata.take_append]

/-- A failed write leaves the buffer as it is. -/
theorem CopyInv.failWrite {errno : Int} (hinv : CopyInv content copier)
    (hpoint : copier.point = .write) : CopyInv content (copier.failWrite errno) := by
  have hconserved := hinv.conserved
  rw [Copier.unwritten, if_pos (.inl hpoint)] at hconserved
  by_cases hintr : errno = eintr
  · rw [hintr, failWrite_eintr]
    refine ⟨hinv.offset_le, ?_, hinv.bounds, fun h => absurd (hpoint.symm.trans h) nofun⟩
    rw [written_emit, Copier.unwritten, if_pos (.inl hpoint)]
    exact (congrArg (· ++ _) (List.append_nil _)).trans hconserved
  · rw [failWrite_eq hintr]
    refine ⟨hinv.offset_le, ?_, nofun, nofun⟩
    rw [Copier.unwritten, if_pos (.inr rfl)]
    show ((copier.emit _).emit _).written ++ _ = _
    simp only [written_emit, Call.written, List.append_nil]
    exact hconserved

/-- A write moves bytes from the front of the rest to `dfd`. -/
theorem CopyInv.wrote {ret : Nat} (hinv : CopyInv content copier) (hpoint : copier.point = .write)
    (hret : (ret : Int) ≤ copier.len) : CopyInv content (copier.wrote ret) := by
  obtain ⟨hpos, -⟩ := hinv.bounds hpoint
  refine ⟨hinv.offset_le, ?_, fun h => ⟨?_, ?_⟩, fun h => ?_⟩
  · have hwritten : (copier.wrote ret).written =
        copier.written ++ copier.buf.slice copier.pos.toNat ret := written_emit copier _
    rw [hwritten, List.append_assoc, unwritten_wrote hinv hpoint hret]
    exact hinv.conserved
  · show 0 ≤ copier.pos + ret
    omega
  · show 0 < copier.len - ret
    simp only [wrote_eq] at h
    split at h
    · assumption
    · cases h
  · rw [wrote_eq] at h
    simp only at h
    split at h <;> cases h

/-- Every call keeps the invariant. -/
theorem CopyInv.step {next : Copier} {answer : Answer} (hinv : CopyInv content copier)
    (h : step content copier answer = some next) : CopyInv content next := by
  obtain ⟨hpoint, -, size, hsize, rfl⟩ | ⟨hpoint, errno, -, rfl⟩ |
    ⟨hpoint, -, data, hle, hdata, rfl⟩ | ⟨hpoint, -, errno, rfl⟩ |
    ⟨hpoint, -, ret, hret, rfl⟩ := step_cases h
  · exact hinv.fetch hpoint hsize
  · exact hinv.failRead hpoint
  · exact hinv.gotRead hpoint hdata
  · exact hinv.failWrite hpoint
  · exact hinv.wrote hpoint hret

/-! ### The accounts of a call -/

theorem CopyInv.isPrefix_written (hinv : CopyInv content copier) : copier.written <+: content :=
  (List.prefix_append _ _).trans (hinv.conserved ▸ List.take_prefix _ _)

theorem iteration_failWrite (errno : Int) :
    (copier.failWrite errno).iteration = copier.iteration := by
  by_cases hintr : errno = eintr
  · rw [hintr, failWrite_eintr, iteration_emit]
    rfl
  · rw [failWrite_eq hintr]
    show ((copier.emit _).emit _).iteration = copier.iteration
    rw [iteration_emit, iteration_emit]
    rfl

theorem iteration_wrote (ret : Nat) : (copier.wrote ret).iteration = copier.iteration :=
  iteration_emit copier _

theorem Accounted.of_write {next : Copier} (hacc : Accounted content copier)
    (hpoint : copier.point = .write) (hsame : next.iteration = copier.iteration)
    (hwritten : next.written <+: content) : Accounted content next where
  returned := hsame ▸ hacc.returned
  balanced := fun _ => hsame ▸ hacc.balanced (.inr hpoint)
  written := hwritten

/-- A call that is no read that failed for good keeps the accounts. -/
theorem Accounted.step {next : Copier} {answer : Answer} (hinv : CopyInv content copier)
    (hacc : Accounted content copier) (hon : answer.ReadsOn)
    (h : MytbfCopy.step content copier answer = some next) : Accounted content next := by
  have hnext := (hinv.step h).isPrefix_written
  obtain ⟨hpoint, -, size, hsize, rfl⟩ | ⟨hpoint, errno, rfl, rfl⟩ |
    ⟨hpoint, -, data, hle, hdata, rfl⟩ | ⟨hpoint, -, errno, rfl⟩ |
    ⟨hpoint, -, ret, hret, rfl⟩ := step_cases h
  · have hiteration : (copier.afterFetch size).iteration = ⟨size, 0, 0⟩ := by
      rw [afterFetch_eq hsize]
      exact iteration_emit copier _
    refine ⟨by rw [hiteration]; exact hsize.le, ?_, hnext⟩
    rw [afterFetch_eq hsize]
    rintro (h | h) <;> cases h
  · obtain ⟨hsize, hiteration⟩ := hinv.fetched hpoint
    obtain rfl : errno = eintr := hon
    rw [failRead_eintr] at hnext ⊢
    refine ⟨?_, ?_, hnext⟩
    · rw [iteration_emit]
      exact hacc.returned
    · rintro (h | h) <;> cases hpoint.symm.trans h
  · obtain ⟨hsize, hiteration⟩ := hinv.fetched hpoint
    by_cases hnil : data = []
    · subst hnil
      rw [gotRead_nil] at hnext ⊢
      refine ⟨?_, nofun, hnext⟩
      show (copier.emit _).iteration.returned ≤ (copier.emit _).iteration.fetched
      rw [iteration_emit]
      exact hacc.returned
    · have hcount : (data.length : Int) ≤ copier.size := by
        have hle := hdata.length_le
        omega
      obtain ⟨-, -, -, -, -, -, haccounts⟩ := gotRead_of_ne_nil hle hnil hcount
      refine ⟨?_, fun _ => ?_, hnext⟩
      · rw [haccounts, hiteration]
        show 0 + (copier.size - data.length) ≤ copier.size
        omega
      · rw [haccounts, hiteration]
        show copier.size - (0 + (copier.size - data.length)) = 0 + data.length
        omega
  · exact hacc.of_write hpoint (iteration_failWrite errno) hnext
  · exact hacc.of_write hpoint (iteration_wrote ret) hnext

/-- A read that failed for good gives back one token more than was fetched. -/
theorem not_accounted_failRead {errno : Int} (hinv : CopyInv content copier)
    (hpoint : copier.point = .read) (herrno : errno ≠ eintr) :
    ¬ Accounted content (copier.failRead errno) := by
  intro hacc
  obtain ⟨hsize, hiteration⟩ := hinv.fetched hpoint
  have haccounts : (copier.failRead errno).iteration = ⟨copier.size, copier.size + 1, 0⟩ := by
    rw [failRead_eq herrno hsize]
    show (((copier.emit _).emit _).emit _).iteration = _
    simp [Iteration.next, hiteration]
  have hreturned := hacc.returned
  rw [haccounts] at hreturned
  exact absurd hreturned (by show ¬ copier.size + 1 ≤ copier.size; omega)

end Calls

/-! ## Runs -/

theorem copyInv_start (content : Bytes) (fresh : Copier) : CopyInv content fresh.start where
  offset_le := Nat.zero_le _
  conserved := rfl
  bounds := nofun
  fetched := nofun

theorem accounted_start (content : Bytes) (fresh : Copier) : Accounted content fresh.start where
  returned := le_rfl
  balanced := fun _ => rfl
  written := List.nil_prefix

theorem copyInv_run (content : Bytes) (fresh : Copier) (answers : List Answer) :
    CopyInv content (EventMachine.run (step content) fresh.start answers) :=
  EventMachine.run_induction (step content) (fun _ _ _ hinv h => hinv.step h) answers
    (copyInv_start content fresh)

/-- Whatever the copier meets, its accounts are right in every state exactly as long as
no read fails for good. -/
theorem accounted_iff_readsOn (content : Bytes) (fresh : Copier) (answers : List Answer) :
    (∀ before rest, answers = before ++ rest →
      Accounted content (EventMachine.run (step content) fresh.start before)) ↔
    EventMachine.Meets (step content) (fun _ answer => answer.ReadsOn) fresh.start answers := by
  constructor
  · intro hacc
    refine EventMachine.meets_of_forall fun before answer rest next hanswers hstep => ?_
    have hinv := copyInv_run content fresh before
    have hnext : EventMachine.run (step content) fresh.start (before ++ [answer]) = next := by
      rw [EventMachine.run_append, EventMachine.run_cons, EventMachine.run_nil,
        EventMachine.apply, hstep, Option.getD_some]
    have haccNext : Accounted content next :=
      hnext ▸ hacc (before ++ [answer]) rest (by rw [hanswers, List.append_assoc]; rfl)
    obtain ⟨-, hon, -⟩ | ⟨hpoint, errno, rfl, rfl⟩ | ⟨-, hon, -⟩ | ⟨-, hon, -⟩ | ⟨-, hon, -⟩ :=
      step_cases hstep
    · exact hon
    · by_contra hfailed
      exact not_accounted_failRead hinv hpoint hfailed haccNext
    · exact hon
    · exact hon
    · exact hon
  · rintro hmeets before rest rfl
    have hbefore := (EventMachine.meets_append.mp hmeets).1
    refine (hbefore.run_induction
      (fun copier => CopyInv content copier ∧ Accounted content copier) ?_
      ⟨copyInv_start content fresh, accounted_start content fresh⟩).2
    rintro copier answer next ⟨hinv, hacc⟩ hon hstep
    exact ⟨hinv.step hstep, hacc.step hinv hon hstep⟩

/-- One token is fetched, the read fails with `EIO`, and two are given back. -/
theorem not_accounted_eio :
    ¬ Accounted [97] (EventMachine.run (step [97])
      (Copier.start ⟨.fetch, 0, 0, 0, Buffer.zeros bufsize, 0, []⟩)
      [.fetch ⟨10, 100, 1⟩, .read (.error 5)]) := by
  intro hacc
  have hreturned := hacc.returned
  revert hreturned
  decide +kernel

end LearnApue.Para.MytbfCopy
