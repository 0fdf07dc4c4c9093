import LearnApue.Foundation.ByteFile
import LearnApue.Foundation.CInt
import LearnApue.Foundation.EventMachine

set_option autoImplicit false

/-!
# `share`

`sys/share.c` takes the tenth line out of a file in place.  `fd1` looks for the line
byte by byte and then reads what is behind it; `fd2` writes that over the line; at the
end the file is cut by the length of the line.

Both descriptors work on one file.  While the rest of the file moves to the front, a
gap as long as the line lies between what was written and what is still to be read, so
a write never reaches a byte that was not read.
-/

namespace LearnApue.Sys.Share

open LearnApue.Foundation LearnApue.Foundation.ByteFile

/-! ## The transcription -/

/-- `sizeof(buf)`. -/
def bufsize : Nat := 1024

/-- Where the program stands: at the read of the first and of the second scan, at the
read and the write of the copying loop, or behind `ftruncate`. -/
inductive ShareAt where
  | ninth
  | tenth
  | read
  | write
  | done
deriving DecidableEq, Repr

/-- The file, the offsets of `fd1` and `fd2`, the variables of `main`, and what was given
to `perror`. -/
structure Editor where
  point : ShareAt
  file : Bytes
  offset1 : Nat
  offset2 : Nat
  line : Int
  len : Int
  start : Int
  stop : Int
  newLen : Int
  buf : Buffer bufsize
  errors : List String
deriving DecidableEq

/-- What a call meets: the bytes read or how many were written, or `errno`. -/
inductive Answer where
  | read (result : Except Int Bytes)
  | write (result : Except Int Nat)
deriving DecidableEq

/-- An `off_t` that is put into an `int`. -/
def asInt (value : Nat) : Int := Int.bmod value (2 ^ 32)

/-- `lseek` to an offset that is set; a negative one is refused. -/
def seek (offset : Nat) (value : Int) : Nat := if 0 ≤ value then value.toNat else offset

/-- `ftruncate`; a negative length is refused. -/
def ftruncate (file : Bytes) (length : Int) : Bytes :=
  if 0 ≤ length then truncate file length.toNat else file

/-- Behind the first scan. -/
def Editor.afterNinth (editor : Editor) : Editor :=
  { editor with start := asInt editor.offset1, point := .tenth }

/-- Behind the second scan, up to the copying loop. -/
def Editor.afterTenth (editor : Editor) : Option Editor :=
  let stop := asInt editor.offset1
  (toInt? (stop - editor.start)).bind fun line10Len =>
    (toInt? (editor.len - line10Len)).map fun newLen =>
      { editor with
        stop := stop, newLen := newLen, offset1 := seek editor.offset1 stop,
        offset2 := seek editor.offset2 editor.start, point := .read }

/-- A byte in the first scan. -/
def Editor.countLine (editor : Editor) (c : Byte) : Editor :=
  let editor := { editor with
    offset1 := editor.offset1 + 1, line := if c = newline then editor.line + 1 else editor.line }
  if editor.line < 10 then editor else editor.afterNinth

/-- A byte in the second scan. -/
def Editor.findEnd (editor : Editor) (c : Byte) : Option Editor :=
  let editor := { editor with offset1 := editor.offset1 + 1 }
  if c = newline then editor.afterTenth else some editor

/-- Behind the copying loop. -/
def Editor.finish (editor : Editor) : Editor :=
  { editor with file := ftruncate editor.file editor.newLen, point := .done }

/-- A chunk was read. -/
def Editor.gotRead (editor : Editor) (data : Bytes) (h : data.length ≤ bufsize) : Editor :=
  let editor := { editor with
    len := data.length, buf := editor.buf.store data h, offset1 := editor.offset1 + data.length }
  if editor.len = 0 then editor.finish else { editor with point := .write }

/-- A write took `ret` bytes; nobody looks how many. -/
def Editor.wrote (editor : Editor) (ret : Nat) : Editor :=
  { editor with
    file := overwrite editor.file editor.offset2 (editor.buf.slice 0 ret),
    offset2 := editor.offset2 + ret, point := .read }

/-- The program's next call, where it can meet that answer. -/
def step (editor : Editor) (answer : Answer) : Option Editor :=
  match editor.point, answer with
  | .ninth, .read (.error _) => some editor.afterNinth
  | .ninth, .read (.ok data) =>
      if Delivers editor.file editor.offset1 1 data then
        match data with
        | [] => some editor.afterNinth
        | c :: _ => some (editor.countLine c)
      else none
  | .tenth, .read (.error _) => editor.afterTenth
  | .tenth, .read (.ok data) =>
      if Delivers editor.file editor.offset1 1 data then
        match data with
        | [] => editor.afterTenth
        | c :: _ => editor.findEnd c
      else none
  | .read, .read (.error _) =>
      some { editor with len := -1, errors := editor.errors ++ ["read"] }.finish
  | .read, .read (.ok data) =>
      if h : Delivers editor.file editor.offset1 bufsize data then
        some (editor.gotRead data h.length_le)
      else none
  | .write, .write (.error _) => some { editor with point := .read }
  | .write, .write (.ok ret) => if (ret : Int) ≤ editor.len then some (editor.wrote ret) else none
  | _, _ => none

/-- The program at its first scan of a file: the other variables are what they were. -/
def Editor.begin (fresh : Editor) (content : Bytes) : Editor :=
  { fresh with
    point := .ninth, file := content, offset1 := 0, offset2 := 0, line := 1,
    len := asInt content.length, errors := [] }

/-! ## What the program is for -/

/-- A line, which ends at a newline or at the end of the file. -/
def IsLine (line rest : Bytes) : Prop :=
  ∃ body, newline ∉ body ∧ (line = body ++ [newline] ∨ line = body ∧ rest = [])

/-- A file is cut behind its ninth newline and behind its tenth line. -/
structure Cut (content front tenth rest : Bytes) : Prop where
  whole : content = front ++ tenth ++ rest
  nine : front.count newline = 9
  last : front.getLast? = some newline
  line : IsLine tenth rest

/-- The file is the content without its tenth line, if there are nine newlines before
one. -/
def DeletesTenthLine (content file : Bytes) : Prop :=
  (content.count newline < 9 ∧ file = content) ∨
  ∃ front tenth rest, Cut content front tenth rest ∧ file = front ++ rest

/-- A read that succeeds, or a write that takes everything. -/
def Succeeds (editor : Editor) : Answer → Prop
  | .read (.ok _) => True
  | .write (.ok ret) => (ret : Int) = editor.len
  | _ => False

instance (editor : Editor) : (answer : Answer) → Decidable (Succeeds editor answer)
  | .read (.ok _) => inferInstanceAs (Decidable True)
  | .read (.error _) => inferInstanceAs (Decidable False)
  | .write (.ok ret) => inferInstanceAs (Decidable ((ret : Int) = editor.len))
  | .write (.error _) => inferInstanceAs (Decidable False)

/-! ## The invariant -/

/-- What the first scan found: the front of the file up to its ninth newline, or all of a
file with fewer. -/
def NinthFound (content front : Bytes) : Prop :=
  (front.count newline = 9 ∧ front.getLast? = some newline) ∨
  (front = content ∧ content.count newline < 9)

/-- What the second scan found: a cut, or the end of a file with fewer newlines. -/
def LineFound (content front tenth rest : Bytes) : Prop :=
  Cut content front tenth rest ∨
  (content.count newline < 9 ∧ front = content ∧ tenth = [] ∧ rest = [])

/-- What the program keeps at each of its calls.  In the copying loop `gap` is what lies
between the bytes that were moved and the ones that were not read. -/
inductive EditInv (content : Bytes) : Editor → Prop where
  | ninth {editor : Editor} (hpoint : editor.point = .ninth) (hfile : editor.file = content)
      (hlen : editor.len = content.length) (hoffset : editor.offset1 ≤ content.length)
      (hline : editor.line = 1 + (content.take editor.offset1).count newline)
      (hlt : editor.line < 10) : EditInv content editor
  | tenth {editor : Editor} {front body : Bytes} (hpoint : editor.point = .tenth)
      (hfile : editor.file = content) (hlen : editor.len = content.length)
      (hoffset : editor.offset1 ≤ content.length)
      (htake : content.take editor.offset1 = front ++ body) (hstart : editor.start = front.length)
      (hbody : newline ∉ body) (hfound : NinthFound content front) : EditInv content editor
  | read {editor : Editor} {front tenth moved gap rest : Bytes} (hpoint : editor.point = .read)
      (hfound : LineFound content front tenth (moved ++ rest))
      (hfile : editor.file = (front ++ moved ++ gap) ++ rest)
      (hoffset1 : editor.offset1 = (front ++ moved ++ gap).length)
      (hoffset2 : editor.offset2 = (front ++ moved).length)
      (hnewLen : editor.newLen = (front ++ moved ++ rest).length) : EditInv content editor
  | write {editor : Editor} {front tenth moved gap data rest : Bytes}
      (hpoint : editor.point = .write)
      (hfound : LineFound content front tenth (moved ++ data ++ rest))
      (hfile : editor.file = (front ++ moved ++ gap ++ data) ++ rest)
      (hoffset1 : editor.offset1 = (front ++ moved ++ gap ++ data).length)
      (hoffset2 : editor.offset2 = (front ++ moved).length)
      (hnewLen : editor.newLen = (front ++ moved ++ data ++ rest).length)
      (hlen : editor.len = data.length) (hbuf : editor.buf.slice 0 data.length = data) :
      EditInv content editor
  | done {editor : Editor} (hpoint : editor.point = .done)
      (hdeletes : DeletesTenthLine content editor.file) : EditInv content editor

theorem LineFound.deletes {content front tenth rest : Bytes}
    (h : LineFound content front tenth rest) : DeletesTenthLine content (front ++ rest) := by
  rcases h with hcut | ⟨hcount, rfl, -, rfl⟩
  · exact .inr ⟨front, tenth, rest, hcut, rfl⟩
  · exact .inl ⟨hcount, List.append_nil front⟩

theorem asInt_of_lt {value : Nat} (h : value < 2 ^ 31) : asInt value = value := by
  unfold asInt
  apply Int.bmod_eq_of_le <;> omega

theorem seek_natCast (offset value : Nat) : seek offset value = value :=
  if_pos (Int.natCast_nonneg value)

/-! ## One call -/

section Calls

variable {content : Bytes} {editor : Editor}

/-- What a call of the program that succeeds can be. -/
theorem step_cases {next : Editor} {answer : Answer} (hok : Succeeds editor answer)
    (h : step editor answer = some next) :
    (editor.point = .ninth ∧ Delivers editor.file editor.offset1 1 [] ∧ next = editor.afterNinth) ∨
    (editor.point = .ninth ∧ ∃ c data, Delivers editor.file editor.offset1 1 (c :: data) ∧
      next = editor.countLine c) ∨
    (editor.point = .tenth ∧ Delivers editor.file editor.offset1 1 [] ∧
      editor.afterTenth = some next) ∨
    (editor.point = .tenth ∧ ∃ c data, Delivers editor.file editor.offset1 1 (c :: data) ∧
      editor.findEnd c = some next) ∨
    (editor.point = .read ∧ ∃ data hle, Delivers editor.file editor.offset1 bufsize data ∧
      next = editor.gotRead data hle) ∨
    (editor.point = .write ∧ ∃ ret : Nat, (ret : Int) = editor.len ∧ next = editor.wrote ret) := by
  unfold step at h
  split at h
  · exact hok.elim
  · rename_i data hpoint
    split at h
    · rename_i hdata
      cases data with
      | nil => exact .inl ⟨hpoint, hdata, (Option.some.inj h).symm⟩
      | cons c data => exact .inr (.inl ⟨hpoint, c, data, hdata, (Option.some.inj h).symm⟩)
    · cases h
  · exact hok.elim
  · rename_i data hpoint
    split at h
    · rename_i hdata
      cases data with
      | nil => exact .inr (.inr (.inl ⟨hpoint, hdata, h⟩))
      | cons c data => exact .inr (.inr (.inr (.inl ⟨hpoint, c, data, hdata, h⟩)))
    · cases h
  · exact hok.elim
  · rename_i data hpoint
    split at h
    · rename_i hdata
      exact .inr (.inr (.inr (.inr (.inl
        ⟨hpoint, data, hdata.length_le, hdata, (Option.some.inj h).symm⟩))))
    · cases h
  · exact hok.elim
  · rename_i ret hpoint
    split at h
    · exact .inr (.inr (.inr (.inr (.inr ⟨hpoint, ret, hok, (Option.some.inj h).symm⟩))))
    · cases h
  · cases h

/-- Behind the second scan no operation overflows. -/
theorem afterTenth_eq {start : Nat} (hsize : content.length < 2 ^ 31)
    (hlen : editor.len = content.length) (hstart : editor.start = start)
    (hle : start ≤ editor.offset1) (hoffset : editor.offset1 ≤ content.length) :
    editor.afterTenth =
      some { editor with
        stop := editor.offset1, newLen := content.length - (editor.offset1 - start : Nat),
        offset2 := start, point := .read } := by
  have hline : InInt ((editor.offset1 : Int) - start) := by
    unfold InInt intMin intMax
    omega
  have hnew : InInt ((content.length : Int) - (editor.offset1 - start)) := by
    unfold InInt intMin intMax
    omega
  have hstop : asInt editor.offset1 = editor.offset1 := asInt_of_lt (by omega)
  have hcast : ((editor.offset1 - start : Nat) : Int) = editor.offset1 - start := by omega
  unfold Editor.afterTenth
  simp only [hstop, hstart, hlen, toInt?_eq_some hline, Option.bind_some, toInt?_eq_some hnew,
    Option.map_some, seek_natCast, hcast]

/-- The first scan ends behind its ninth newline or at the end of the file. -/
theorem EditInv.afterNinth (hsize : content.length < 2 ^ 31) (hfile : editor.file = content)
    (hlen : editor.len = content.length) (hoffset : editor.offset1 ≤ content.length)
    (hfound : NinthFound content (content.take editor.offset1)) :
    EditInv content editor.afterNinth := by
  have hstart : asInt editor.offset1 = (content.take editor.offset1).length := by
    rw [List.length_take, min_eq_left hoffset]
    exact asInt_of_lt (by omega)
  unfold Editor.afterNinth
  rw [hstart]
  exact @EditInv.tenth content _ (content.take editor.offset1) [] rfl hfile hlen hoffset
    (List.append_nil _).symm rfl List.not_mem_nil hfound

/-- One more byte of a file is behind the offset. -/
theorem take_succ_of_delivers {c : Byte} {data : Bytes} {offset : Nat}
    (h : Delivers content offset 1 (c :: data)) :
    content.take (offset + 1) = content.take offset ++ [c] := by
  have hnil : data = [] := by
    have hle := h.length_le
    rw [List.length_cons] at hle
    exact List.eq_nil_of_length_eq_zero (by omega)
  subst hnil
  exact h.take_append.symm

theorem add_one_le_of_delivers {c : Byte} {data : Bytes} {offset : Nat}
    (h : Delivers content offset 1 (c :: data)) (hoffset : offset ≤ content.length) :
    offset + 1 ≤ content.length := by
  have hle := h.add_length_le hoffset
  rw [List.length_cons] at hle
  omega

/-- A byte in the first scan. -/
theorem EditInv.countLine {c : Byte} {data : Bytes} (hsize : content.length < 2 ^ 31)
    (hpoint : editor.point = .ninth) (hfile : editor.file = content)
    (hlen : editor.len = content.length) (hoffset : editor.offset1 ≤ content.length)
    (hline : editor.line = 1 + (content.take editor.offset1).count newline)
    (hlt : editor.line < 10) (hdata : Delivers content editor.offset1 1 (c :: data)) :
    EditInv content (editor.countLine c) := by
  have htake := take_succ_of_delivers hdata
  have hnext := add_one_le_of_delivers hdata hoffset
  have hcount : ((content.take (editor.offset1 + 1)).count newline : Int) =
      (content.take editor.offset1).count newline + if c = newline then 1 else 0 := by
    rw [htake, List.count_append]
    split
    · rename_i heq
      rw [heq, List.count_singleton_self]
      rfl
    · rename_i hne
      rw [List.count_singleton, if_neg (by simpa using hne)]
      rfl
  have hline' : (if c = newline then editor.line + 1 else editor.line) =
      1 + (content.take (editor.offset1 + 1)).count newline := by
    rw [hcount, hline]
    split <;> omega
  unfold Editor.countLine
  by_cases hmore : (if c = newline then editor.line + 1 else editor.line) < 10
  · simp only [if_pos hmore]
    exact .ninth hpoint hfile hlen hnext hline' hmore
  · simp only [if_neg hmore]
    -- the line that ended was the ninth
    have hc : c = newline := by
      by_contra hne
      rw [if_neg hne] at hmore
      exact hmore hlt
    refine EditInv.afterNinth hsize hfile hlen hnext (.inl ⟨?_, ?_⟩)
    · rw [if_pos hc] at hmore hline'
      show (content.take (editor.offset1 + 1)).count newline = 9
      omega
    · show (content.take (editor.offset1 + 1)).getLast? = some newline
      rw [htake, hc, List.getLast?_append]
      rfl

/-- The copying loop begins with nothing moved and the tenth line for a gap. -/
theorem EditInv.afterTenth {front tenth : Bytes} (hsize : content.length < 2 ^ 31)
    (hfile : editor.file = content) (hlen : editor.len = content.length)
    (hoffset : editor.offset1 ≤ content.length)
    (htake : content.take editor.offset1 = front ++ tenth) (hstart : editor.start = front.length)
    (hfound : LineFound content front tenth (content.drop editor.offset1)) :
    ∃ next, editor.afterTenth = some next ∧ EditInv content next := by
  have hlength : editor.offset1 = front.length + tenth.length := by
    rw [← List.length_append, ← htake, List.length_take, min_eq_left hoffset]
  refine ⟨_, afterTenth_eq hsize hlen hstart (by omega) hoffset, ?_⟩
  have hrest : (content.drop editor.offset1).length = content.length - editor.offset1 :=
    List.length_drop
  refine @EditInv.read content _ front tenth [] tenth (content.drop editor.offset1) rfl hfound ?_ ?_
    ?_ ?_
  · show editor.file = _
    rw [hfile, List.append_nil, ← htake, List.take_append_drop]
  · show editor.offset1 = _
    rw [List.append_nil, List.length_append, hlength]
  · show front.length = _
    rw [List.append_nil]
  · show (content.length : Int) - (editor.offset1 - front.length : Nat) = _
    rw [List.append_nil, List.length_append, hrest]
    omega

/-- The second scan at the end of the file. -/
theorem lineFound_of_end {front body : Bytes} (hwhole : content = front ++ body)
    (hbody : newline ∉ body) (hfound : NinthFound content front) :
    LineFound content front body [] := by
  rcases hfound with ⟨hnine, hlast⟩ | ⟨rfl, hcount⟩
  · exact .inl ⟨by rw [List.append_nil, hwhole], hnine, hlast, body, hbody, .inr ⟨rfl, rfl⟩⟩
  · exact .inr ⟨hcount, rfl, List.self_eq_append_right.mp hwhole, rfl⟩

/-- The second scan at the end of a line: the file has nine newlines before it. -/
theorem lineFound_of_newline {front body rest : Bytes}
    (hwhole : content = front ++ (body ++ [newline]) ++ rest) (hbody : newline ∉ body)
    (hfound : NinthFound content front) :
    LineFound content front (body ++ [newline]) rest := by
  rcases hfound with ⟨hnine, hlast⟩ | ⟨rfl, -⟩
  · exact .inl ⟨hwhole, hnine, hlast, body, hbody, .inl rfl⟩
  · have hlength := congrArg List.length hwhole
    simp only [List.length_append, List.length_singleton] at hlength
    omega

/-- A byte in the second scan. -/
theorem EditInv.findEnd {c : Byte} {data front body : Bytes} (hsize : content.length < 2 ^ 31)
    (hpoint : editor.point = .tenth) (hfile : editor.file = content)
    (hlen : editor.len = content.length) (hoffset : editor.offset1 ≤ content.length)
    (htake : content.take editor.offset1 = front ++ body) (hstart : editor.start = front.length)
    (hbody : newline ∉ body) (hfound : NinthFound content front)
    (hdata : Delivers content editor.offset1 1 (c :: data)) :
    ∃ next, editor.findEnd c = some next ∧ EditInv content next := by
  have htake' : content.take (editor.offset1 + 1) = front ++ (body ++ [c]) := by
    rw [take_succ_of_delivers hdata, htake, List.append_assoc]
  have hnext := add_one_le_of_delivers hdata hoffset
  unfold Editor.findEnd
  by_cases hc : c = newline
  · rw [if_pos hc]
    rw [hc] at htake'
    refine EditInv.afterTenth hsize hfile hlen hnext htake' hstart ?_
    refine lineFound_of_newline ?_ hbody hfound
    rw [← htake', List.take_append_drop]
  · rw [if_neg hc]
    refine ⟨_, rfl, .tenth hpoint hfile hlen hnext htake' hstart ?_ hfound⟩
    rw [List.mem_append, List.mem_singleton]
    rintro (hmem | heq)
    · exact hbody hmem
    · exact hc heq.symm

/-- A chunk is read from behind the gap; at the end of the file the gap is cut off. -/
theorem EditInv.gotRead {front tenth moved gap rest data : Bytes} {hle : data.length ≤ bufsize}
    (hfound : LineFound content front tenth (moved ++ rest))
    (hfile : editor.file = (front ++ moved ++ gap) ++ rest)
    (hoffset1 : editor.offset1 = (front ++ moved ++ gap).length)
    (hoffset2 : editor.offset2 = (front ++ moved).length)
    (hnewLen : editor.newLen = (front ++ moved ++ rest).length)
    (hdata : Delivers editor.file editor.offset1 bufsize data) :
    EditInv content (editor.gotRead data hle) := by
  rw [hfile, hoffset1] at hdata
  unfold Editor.gotRead
  by_cases hnil : data = []
  · subst hnil
    have hrest : rest = [] := by
      rcases hdata.2.2 rfl with hzero | hend
      · cases hzero
      · rw [List.length_append] at hend
        exact List.eq_nil_of_length_eq_zero (by omega)
    subst hrest
    refine .done rfl ?_
    have hcut : ftruncate editor.file editor.newLen = front ++ moved := by
      rw [hnewLen, hfile, List.append_nil, List.append_nil, ftruncate,
        if_pos (Int.natCast_nonneg _), Int.toNat_natCast, truncate_of_le (by simp), List.take_left]
    show DeletesTenthLine content (ftruncate editor.file editor.newLen)
    rw [hcut]
    have hdeletes := hfound.deletes
    rwa [List.append_nil] at hdeletes
  · have hlen : ¬ ((data.length : Int) = 0) := by simpa using hnil
    obtain ⟨later, rfl⟩ := hdata.of_append
    simp only [if_neg hlen]
    refine @EditInv.write content _ front tenth moved gap data later rfl
      (by rwa [List.append_assoc]) ?_ ?_ hoffset2 ?_ rfl (Buffer.slice_store hle)
    · rw [hfile]
      simp only [List.append_assoc]
    · show editor.offset1 + data.length = _
      rw [hoffset1, ← List.length_append]
    · rw [hnewLen]
      simp only [List.append_assoc]

/-- A chunk is written to the front of the gap, and the gap moves on. -/
theorem EditInv.wrote {front tenth moved gap data rest : Bytes}
    (hfound : LineFound content front tenth (moved ++ data ++ rest))
    (hfile : editor.file = (front ++ moved ++ gap ++ data) ++ rest)
    (hoffset1 : editor.offset1 = (front ++ moved ++ gap ++ data).length)
    (hoffset2 : editor.offset2 = (front ++ moved).length)
    (hnewLen : editor.newLen = (front ++ moved ++ data ++ rest).length)
    (hbuf : editor.buf.slice 0 data.length = data) :
    EditInv content (editor.wrote data.length) := by
  have hbehind : data.length ≤ (gap ++ data).length := by simp
  have hwritten : overwrite editor.file editor.offset2 (editor.buf.slice 0 data.length) =
      (front ++ moved ++ data ++ (gap ++ data).drop data.length) ++ rest := by
    have hsplit : (front ++ moved ++ gap ++ data) ++ rest = (front ++ moved) ++ (gap ++ data ++ rest) := by
      simp only [List.append_assoc]
    rw [hbuf, hfile, hoffset2, hsplit, overwrite_append, List.drop_append_of_le_length hbehind]
    simp only [List.append_assoc]
  refine @EditInv.read content _ front tenth (moved ++ data) ((gap ++ data).drop data.length) rest rfl
    hfound ?_ ?_ ?_ ?_
  · show overwrite _ _ _ = _
    rw [hwritten]
    simp only [List.append_assoc]
  · show editor.offset1 = _
    rw [hoffset1]
    simp only [List.length_append, List.length_drop]
    omega
  · show editor.offset2 + data.length = _
    rw [hoffset2]
    simp only [List.length_append]
    omega
  · show editor.newLen = _
    rw [hnewLen]
    simp only [List.append_assoc]

/-- Every call that succeeds keeps the invariant. -/
theorem EditInv.step {next : Editor} {answer : Answer} (hsize : content.length < 2 ^ 31)
    (hinv : EditInv content editor) (hok : Succeeds editor answer)
    (h : Share.step editor answer = some next) : EditInv content next := by
  have hcases := step_cases hok h
  cases hinv with
  | ninth hpoint hfile hlen hoffset hline hlt =>
    simp only [hpoint, hfile, reduceCtorEq, true_and, false_and, or_false] at hcases
    rcases hcases with ⟨hdata, rfl⟩ | ⟨c, data, hdata, rfl⟩
    · have hwhole := hdata.atEnd one_pos
      refine EditInv.afterNinth hsize hfile hlen hoffset (.inr ⟨hwhole, ?_⟩)
      rw [hwhole] at hline
      omega
    · exact EditInv.countLine hsize hpoint hfile hlen hoffset hline hlt hdata
  | tenth hpoint hfile hlen hoffset htake hstart hbody hfound =>
    simp only [hpoint, hfile, reduceCtorEq, true_and, false_and, or_false, false_or] at hcases
    rcases hcases with ⟨hdata, hafter⟩ | ⟨c, data, hdata, hafter⟩
    · have hwhole := hdata.atEnd one_pos
      have hrest : content.drop editor.offset1 = [] := by
        rw [← hwhole, List.drop_take, Nat.sub_self, List.take_zero]
      have hline := lineFound_of_end (hwhole.symm.trans htake) hbody hfound
      rw [← hrest] at hline
      obtain ⟨after, hsome, hinv⟩ :=
        EditInv.afterTenth hsize hfile hlen hoffset htake hstart hline
      cases hsome.symm.trans hafter
      exact hinv
    · obtain ⟨after, hsome, hinv⟩ :=
        EditInv.findEnd hsize hpoint hfile hlen hoffset htake hstart hbody hfound hdata
      cases hsome.symm.trans hafter
      exact hinv
  | read hpoint hfound hfile hoffset1 hoffset2 hnewLen =>
    simp only [hpoint, reduceCtorEq, true_and, false_and, or_false, false_or] at hcases
    obtain ⟨data, hle, hdata, rfl⟩ := hcases
    exact EditInv.gotRead hfound hfile hoffset1 hoffset2 hnewLen hdata
  | write hpoint hfound hfile hoffset1 hoffset2 hnewLen hlen hbuf =>
    simp only [hpoint, reduceCtorEq, true_and, false_and, false_or] at hcases
    obtain ⟨ret, hret, rfl⟩ := hcases
    obtain rfl : ret = _ := by exact_mod_cast hret.trans hlen
    exact EditInv.wrote hfound hfile hoffset1 hoffset2 hnewLen hbuf
  | done hpoint hdeletes =>
    simp only [hpoint, reduceCtorEq, false_and, or_false] at hcases

/-! ### The calls come to an end -/

/-- How far a call is from the one that ends the program, with nothing left to read. -/
def rank : ShareAt → Nat
  | .ninth => 3
  | .tenth => 2
  | .read => 1
  | .write => 2
  | .done => 0

/-- What is left to do: a byte that was not read costs at most two calls. -/
def work (editor : Editor) : Nat :=
  if editor.point = .done then 0
  else 2 * (editor.file.length - editor.offset1) + rank editor.point

theorem work_eq {point : ShareAt} (hpoint : editor.point = point) (hdone : point ≠ .done) :
    work editor = 2 * (editor.file.length - editor.offset1) + rank point := by
  rw [work, hpoint, if_neg hdone]

theorem EditInv.offset_le (hinv : EditInv content editor) (hdone : editor.point ≠ .done) :
    editor.offset1 ≤ editor.file.length := by
  cases hinv with
  | ninth hpoint hfile hlen hoffset => exact hfile.symm ▸ hoffset
  | tenth hpoint hfile hlen hoffset => exact hfile.symm ▸ hoffset
  | read hpoint hfound hfile hoffset1 =>
    rw [hfile, hoffset1]
    exact (List.prefix_append _ _).length_le
  | write hpoint hfound hfile hoffset1 =>
    rw [hfile, hoffset1]
    exact (List.prefix_append _ _).length_le
  | done hpoint => exact absurd hpoint hdone

theorem afterTenth_some {next : Editor} (h : editor.afterTenth = some next) :
    next.point = .read ∧ next.file = editor.file ∧
      next.offset1 = seek editor.offset1 (asInt editor.offset1) := by
  unfold Editor.afterTenth at h
  obtain ⟨line10Len, -, h⟩ := Option.bind_eq_some_iff.mp h
  obtain ⟨newLen, -, rfl⟩ := Option.map_eq_some_iff.mp h
  simp only [and_self]

theorem work_afterTenth {next : Editor} (hoffset : editor.offset1 < 2 ^ 31)
    (h : editor.afterTenth = some next) :
    work next = 2 * (editor.file.length - editor.offset1) + 1 := by
  obtain ⟨hpoint, hfile, hnext⟩ := afterTenth_some h
  rw [asInt_of_lt hoffset, seek_natCast] at hnext
  rw [work_eq hpoint nofun, hfile, hnext, rank]

theorem work_countLine_le (c : Byte) (hpoint : editor.point = .ninth) :
    work (editor.countLine c) ≤ 2 * (editor.file.length - (editor.offset1 + 1)) + 3 := by
  unfold Editor.countLine
  by_cases hmore : (if c = newline then editor.line + 1 else editor.line) < 10
  · simp [hmore, work, hpoint, rank]
  · simp only [if_neg hmore]
    exact le_of_eq_of_le (@work_eq _ .tenth rfl nofun) (Nat.add_le_add_left (by decide) _)

theorem work_findEnd_le {next : Editor} {c : Byte} (hpoint : editor.point = .tenth)
    (hoffset : editor.offset1 + 1 < 2 ^ 31) (h : editor.findEnd c = some next) :
    work next ≤ 2 * (editor.file.length - (editor.offset1 + 1)) + 2 := by
  unfold Editor.findEnd at h
  simp only at h
  split at h
  · exact (work_afterTenth hoffset h).le.trans (Nat.add_le_add_left (by decide) _)
  · cases h
    simp [work, hpoint, rank]

theorem work_gotRead_le {data : Bytes} {hle : data.length ≤ bufsize} :
    work (editor.gotRead data hle) ≤
      if data = [] then 0 else 2 * (editor.file.length - (editor.offset1 + data.length)) + 2 := by
  unfold Editor.gotRead
  by_cases hnil : data = []
  · subst hnil
    exact le_rfl
  · have hlen : ¬ ((data.length : Int) = 0) := by simpa using hnil
    simp only [if_neg hlen, if_neg hnil]
    exact le_rfl

/-- A write stays within the file. -/
theorem EditInv.length_wrote {ret : Nat} (hinv : EditInv content editor)
    (hpoint : editor.point = .write) (hret : (ret : Int) = editor.len) :
    (editor.wrote ret).file.length = editor.file.length := by
  cases hinv with
  | write _ hfound hfile hoffset1 hoffset2 hnewLen hlen hbuf =>
    obtain rfl : ret = _ := by exact_mod_cast hret.trans hlen
    refine length_overwrite ?_
    rw [hbuf, hfile, hoffset2]
    simp only [List.length_append]
    omega
  | ninth hother => cases hother.symm.trans hpoint
  | tenth hother => cases hother.symm.trans hpoint
  | read hother => cases hother.symm.trans hpoint
  | done hother => cases hother.symm.trans hpoint

/-- Every call that succeeds leaves less to do. -/
theorem work_step {next : Editor} {answer : Answer} (hsize : content.length < 2 ^ 31)
    (hinv : EditInv content editor) (hok : Succeeds editor answer)
    (h : Share.step editor answer = some next) : work next < work editor := by
  have hscan : editor.point = .ninth ∨ editor.point = .tenth →
      editor.file.length = content.length := by
    cases hinv with
    | ninth hpoint hfile => exact fun _ => congrArg List.length hfile
    | tenth hpoint hfile => exact fun _ => congrArg List.length hfile
    | read hpoint => rw [hpoint]; rintro (h | h) <;> cases h
    | write hpoint => rw [hpoint]; rintro (h | h) <;> cases h
    | done hpoint => rw [hpoint]; rintro (h | h) <;> cases h
  have hoffset := hinv.offset_le
  obtain ⟨hpoint, -, rfl⟩ | ⟨hpoint, c, data, hdata, rfl⟩ | ⟨hpoint, -, hafter⟩ |
    ⟨hpoint, c, data, hdata, hafter⟩ | ⟨hpoint, data, hle, hdata, rfl⟩ | ⟨hpoint, ret, hret, rfl⟩ :=
    step_cases hok h
  · rw [work_eq hpoint nofun]
    exact lt_of_eq_of_lt (@work_eq _ .tenth rfl nofun) (Nat.add_lt_add_left (by decide) _)
  · have hlength := hscan (.inl hpoint)
    have hnext := add_one_le_of_delivers hdata (hoffset (by rw [hpoint]; decide))
    have hle := work_countLine_le c hpoint
    rw [work_eq hpoint nofun, rank]
    omega
  · have hlength := hscan (.inr hpoint)
    have hle := hoffset (by rw [hpoint]; decide)
    rw [work_afterTenth (by omega) hafter, work_eq hpoint nofun, rank]
    omega
  · have hlength := hscan (.inr hpoint)
    have hnext := add_one_le_of_delivers hdata (hoffset (by rw [hpoint]; decide))
    have hle := work_findEnd_le hpoint (by omega) hafter
    rw [work_eq hpoint nofun, rank]
    omega
  · have hnext := hdata.add_length_le (hoffset (by rw [hpoint]; decide))
    have hleft := @work_gotRead_le editor data hle
    rw [work_eq hpoint nofun, rank]
    split at hleft
    · omega
    · rename_i hnil
      have hpos : 0 < data.length := List.length_pos_iff.mpr hnil
      omega
  · have hlength : (editor.wrote ret).file.length = editor.file.length :=
      hinv.length_wrote hpoint hret
    rw [work_eq hpoint nofun]
    refine lt_of_eq_of_lt (@work_eq _ .read rfl nofun) ?_
    rw [hlength]
    exact Nat.add_lt_add_left (by decide) _

/-- Before its end the program can always meet a call that succeeds. -/
theorem EditInv.exists_step (hsize : content.length < 2 ^ 31) (hinv : EditInv content editor)
    (hdone : editor.point ≠ .done) :
    ∃ answer next, Succeeds editor answer ∧ Share.step editor answer = some next := by
  have hbyte := delivers_take editor.file editor.offset1 1
  cases hinv with
  | ninth hpoint =>
    refine ⟨.read (.ok ((editor.file.drop editor.offset1).take 1)), ?_⟩
    unfold Share.step
    rw [hpoint]
    simp only [if_pos hbyte]
    split
    · exact ⟨_, trivial, rfl⟩
    · exact ⟨_, trivial, rfl⟩
  | @tenth front body hpoint hfile hlen hoffset htake hstart hbody hfound =>
    refine ⟨.read (.ok ((editor.file.drop editor.offset1).take 1)), ?_⟩
    unfold Share.step
    rw [hpoint]
    simp only [if_pos hbyte]
    have hle : front.length ≤ editor.offset1 := by
      have hlength := congrArg List.length htake
      rw [List.length_take, min_eq_left hoffset, List.length_append] at hlength
      omega
    split
    · exact ⟨_, trivial, afterTenth_eq hsize hlen hstart hle hoffset⟩
    · rename_i c data hdata
      rw [hdata, hfile] at hbyte
      obtain ⟨next, hnext, -⟩ :=
        EditInv.findEnd hsize hpoint hfile hlen hoffset htake hstart hbody hfound hbyte
      exact ⟨next, trivial, hnext⟩
  | read hpoint =>
    have hdata := delivers_take editor.file editor.offset1 bufsize
    refine ⟨.read (.ok ((editor.file.drop editor.offset1).take bufsize)), ?_⟩
    unfold Share.step
    rw [hpoint]
    simp only [dif_pos hdata]
    exact ⟨_, trivial, rfl⟩
  | @write front tenth moved gap data rest hpoint hfound hfile hoffset1 hoffset2 hnewLen hlen =>
    refine ⟨.write (.ok data.length), ?_⟩
    unfold Share.step
    rw [hpoint]
    simp only [if_pos hlen.symm.le]
    exact ⟨_, hlen.symm, rfl⟩
  | done hpoint => exact absurd hpoint hdone

end Calls

/-! ## Runs -/

theorem editInv_begin {content : Bytes} (hsize : content.length < 2 ^ 31) (fresh : Editor) :
    EditInv content (fresh.begin content) := by
  unfold Editor.begin
  rw [asInt_of_lt hsize]
  refine .ninth rfl rfl rfl (Nat.zero_le _) rfl ?_
  show (1 : Int) < 10
  decide

/-- The tenth line is taken out of every file whose length is an `int`, however its
bytes are read: a program that ended has taken it out, and until then it goes on, for at
most two calls a byte and three more. -/
theorem share_deletesTenthLine {content : Bytes} {fresh : Editor} {answers : List Answer}
    (hsize : content.length < 2 ^ 31)
    (hok : EventMachine.Meets step Succeeds (fresh.begin content) answers) :
    ((EventMachine.run step (fresh.begin content) answers).point = .done →
      DeletesTenthLine content (EventMachine.run step (fresh.begin content) answers).file) ∧
    ((EventMachine.run step (fresh.begin content) answers).point ≠ .done →
      ∃ answer next,
        Succeeds (EventMachine.run step (fresh.begin content) answers) answer ∧
        step (EventMachine.run step (fresh.begin content) answers) answer = some next) ∧
    (EventMachine.history step (fresh.begin content) answers).length ≤ 2 * content.length + 3 := by
  have hbegin := editInv_begin hsize fresh
  have hinv : EditInv content (EventMachine.run step (fresh.begin content) answers) :=
    hok.run_induction (EditInv content) (fun _ _ _ hinv hs h => hinv.step hsize hs h) hbegin
  refine ⟨fun hpoint => ?_, fun hpoint => hinv.exists_step hsize hpoint, ?_⟩
  · cases hinv with
    | done _ hdeletes => exact hdeletes
    | ninth hother => cases hother.symm.trans hpoint
    | tenth hother => cases hother.symm.trans hpoint
    | read hother => cases hother.symm.trans hpoint
    | write hother => cases hother.symm.trans hpoint
  · have hcount : (EventMachine.history step (fresh.begin content) answers).length +
        work (EventMachine.run step (fresh.begin content) answers) ≤ work (fresh.begin content) :=
      hok.history_length_le work
        (fun _ _ _ hinv hs h => ⟨EditInv.step hsize hinv hs h, work_step hsize hinv hs h⟩) hbegin
    have hwork : work (fresh.begin content) = 2 * content.length + 3 := rfl
    omega

/-- Nine empty lines, the tenth line `x` and the byte `y`. -/
theorem share_deletesTenthLine_x :
    DeletesTenthLine (List.replicate 9 newline ++ [120, newline, 121])
      (EventMachine.run step
        (Editor.begin ⟨.ninth, [], 0, 0, 0, 0, 0, 0, 0, Buffer.zeros bufsize, []⟩
          (List.replicate 9 newline ++ [120, newline, 121]))
        (List.replicate 9 (.read (.ok [newline])) ++
          [.read (.ok [120]), .read (.ok [newline]), .read (.ok [121]), .write (.ok 1),
            .read (.ok [])])).file :=
  (share_deletesTenthLine (by decide) (by decide +kernel)).1 (by decide +kernel)

end LearnApue.Sys.Share
