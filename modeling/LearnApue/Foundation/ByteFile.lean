import LearnApue.Foundation.CString

set_option autoImplicit false

/-!
# Files as bytes

What `read` may deliver at an offset of a file, a buffer of a fixed size that it
delivers into, and what `write` and `ftruncate` make of a file.
-/

namespace LearnApue.Foundation.ByteFile

/-! ## Reading -/

/-- What a `read` of at most `count` bytes may deliver: bytes of the file from the
offset on, and none of them only at its end. -/
def Delivers (content : Bytes) (offset count : Nat) (data : Bytes) : Prop :=
  data <+: content.drop offset ∧ data.length ≤ count ∧
    (data = [] → count = 0 ∨ content.length ≤ offset)

instance (content : Bytes) (offset count : Nat) (data : Bytes) :
    Decidable (Delivers content offset count data) :=
  inferInstanceAs (Decidable (_ ∧ _))

section Delivers

variable {content data : Bytes} {offset count : Nat}

theorem Delivers.length_le (h : Delivers content offset count data) : data.length ≤ count := h.2.1

/-- A read may always deliver all it was asked for, as far as the file goes. -/
theorem delivers_take (content : Bytes) (offset count : Nat) :
    Delivers content offset count ((content.drop offset).take count) := by
  refine ⟨List.take_prefix _ _, List.length_take_le _ _, fun hnil => ?_⟩
  rcases List.take_eq_nil_iff.mp hnil with hzero | hdrop
  · exact .inl hzero
  · exact .inr (List.drop_eq_nil_iff.mp hdrop)

/-- A read goes on where the ones before it stopped. -/
theorem Delivers.take_append (h : Delivers content offset count data) :
    content.take offset ++ data = content.take (offset + data.length) := by
  obtain ⟨rest, hrest⟩ := h.1
  rw [List.take_add, ← hrest, List.take_left]

theorem Delivers.add_length_le (h : Delivers content offset count data)
    (hoffset : offset ≤ content.length) : offset + data.length ≤ content.length := by
  have hle := h.1.length_le
  rw [List.length_drop] at hle
  omega

/-- A read that was asked for something delivers nothing only at the end. -/
theorem Delivers.atEnd (h : Delivers content offset count []) (hcount : 0 < count) :
    content.take offset = content := by
  rcases h.2.2 rfl with hzero | hend
  · omega
  · exact List.take_of_length_le hend

/-- A read behind the front of a file delivers the front of the rest. -/
theorem Delivers.of_append {front back : Bytes}
    (h : Delivers (front ++ back) front.length count data) : ∃ rest, back = data ++ rest := by
  obtain ⟨rest, hrest⟩ := h.1
  rw [List.drop_left] at hrest
  exact ⟨rest, hrest.symm⟩

end Delivers

/-! ## Buffers -/

/-- `char buf[size]`. -/
def Buffer (size : Nat) : Type := { bytes : Bytes // bytes.length = size }

instance (size : Nat) : DecidableEq (Buffer size) := inferInstanceAs (DecidableEq (Subtype _))

/-- A buffer of zeros. -/
def Buffer.zeros (size : Nat) : Buffer size := ⟨List.replicate size 0, List.length_replicate⟩

section Buffer

variable {size : Nat}

/-- A buffer with some bytes put to its front. -/
def Buffer.store (buf : Buffer size) (data : Bytes) (h : data.length ≤ size) : Buffer size where
  val := data ++ buf.val.drop data.length
  property := by
    rw [List.length_append, List.length_drop, buf.property]
    omega

/-- `count` bytes from `buf + pos`. -/
def Buffer.slice (buf : Buffer size) (pos count : Nat) : Bytes := (buf.val.drop pos).take count

theorem Buffer.slice_store {buf : Buffer size} {data : Bytes} (h : data.length ≤ size) :
    (buf.store data h).slice 0 data.length = data :=
  List.take_left

/-- The front of a slice and the slice behind it. -/
theorem Buffer.slice_split (buf : Buffer size) {pos count taken : Nat} (h : taken ≤ count) :
    buf.slice pos taken ++ buf.slice (pos + taken) (count - taken) = buf.slice pos count := by
  unfold Buffer.slice
  have hdrop : buf.val.drop (pos + taken) = (buf.val.drop pos).drop taken := by
    rw [List.drop_drop]
  rw [hdrop, ← List.take_add, Nat.add_sub_cancel' h]

theorem Buffer.length_slice (buf : Buffer size) {pos count : Nat} (h : pos + count ≤ size) :
    (buf.slice pos count).length = count := by
  rw [Buffer.slice, List.length_take, List.length_drop, buf.property]
  omega

@[simp] theorem Buffer.slice_zero (buf : Buffer size) (pos : Nat) : buf.slice pos 0 = [] :=
  List.take_zero

end Buffer

/-! ## Writing -/

/-- A file with bytes written at an offset; a gap before it reads as zeros. -/
def overwrite (file : Bytes) (offset : Nat) (data : Bytes) : Bytes :=
  (file.rightpad offset 0).take offset ++ data ++ file.drop (offset + data.length)

/-- A file cut, or filled with zeros, to a length. -/
def truncate (file : Bytes) (length : Nat) : Bytes := (file.rightpad length 0).take length

section Writing

variable {file data : Bytes} {offset length : Nat}

theorem rightpad_of_le (h : length ≤ file.length) : file.rightpad length 0 = file := by
  rw [List.rightpad, Nat.sub_eq_zero_of_le h, List.replicate_zero, List.append_nil]

/-- Within a file, a write changes the bytes it covers. -/
theorem overwrite_of_le (h : offset ≤ file.length) :
    overwrite file offset data = file.take offset ++ data ++ file.drop (offset + data.length) := by
  rw [overwrite, rightpad_of_le h]

/-- A write behind the front of a file. -/
theorem overwrite_append (front back : Bytes) :
    overwrite (front ++ back) front.length data = front ++ data ++ back.drop data.length := by
  rw [overwrite_of_le (by simp), List.take_left, List.drop_length_add_append]

theorem truncate_of_le (h : length ≤ file.length) : truncate file length = file.take length := by
  rw [truncate, rightpad_of_le h]

theorem length_overwrite (h : offset + data.length ≤ file.length) :
    (overwrite file offset data).length = file.length := by
  rw [overwrite_of_le (by omega)]
  simp only [List.length_append, List.length_take, List.length_drop]
  omega

end Writing

end LearnApue.Foundation.ByteFile
