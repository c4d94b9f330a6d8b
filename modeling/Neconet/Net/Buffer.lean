import Neconet.Base.Fault
import Neconet.Lib.Slice

/-!
# `CBuffer`

The byte buffer of `net/CBuffer.h` and `net/CBuffer.cpp`: one vector of bytes with a reader and a
writer index into it.

* `CBuffer` and its member functions, as the source computes them: `size_t` is a number below
  `2 ^ 64` with wrap-around, a block copy outside the vector and a failed `assert` are faults, and
  `std::vector::resize` throws above `max_size`.
* `CBuffer.WellFormed`: reader index ≤ writer index ≤ size of the vector.
* `CBuffer.content`: the readable bytes.
* `retrieve_yields`, `prepend_yields`, `write_yields`, ...: what the member functions do on a
  well-formed buffer.
* `ensureWriteableBytes_of_roomFor`, `not_wellFormed_of_not_roomFor`: the space logic, which works
  for the lengths that there is `RoomFor`.
-/

namespace Neconet

open Slice

/-- A `char` of a buffer or a message. -/
abbrev Byte := UInt8

/-! ## `size_t` -/

/-- The number of values of `size_t`. -/
def sizeTCount : ℕ := 2 ^ 64

/-- `a - b` on `size_t`. -/
def sizeSub (a b : ℕ) : ℕ := (a + (sizeTCount - b)) % sizeTCount

/-- `a + b` on `size_t`. -/
def sizeAdd (a b : ℕ) : ℕ := (a + b) % sizeTCount

/-- `std::vector<char>::max_size()`. -/
def vectorMaxSize : ℕ := 2 ^ 63 - 1

/-- A subtraction that does not wrap. -/
theorem sizeSub_of_le {a b : ℕ} (h : b ≤ a) (ha : a < sizeTCount) : sizeSub a b = a - b := by
  unfold sizeSub
  rw [show a + (sizeTCount - b) = (a - b) + sizeTCount by omega, Nat.add_mod_right,
    Nat.mod_eq_of_lt (by omega)]

/-- An addition that does not wrap. -/
theorem sizeAdd_of_lt {a b : ℕ} (h : a + b < sizeTCount) : sizeAdd a b = a + b :=
  Nat.mod_eq_of_lt h

/-! ## The member functions -/

/-- `CBuffer::sm_nCheapPrepend`.
Source: `net/CBuffer.h` -/
def cheapPrepend : ℕ := 8

/-- `CBuffer::sm_nInitialSize`.
Source: `net/CBuffer.h` -/
def initialSize : ℕ := 1024

/-- The fields of `CBuffer`.
Source: `net/CBuffer.h`, `m_vBuffer`, `m_nReaderIndex`, `m_nWriterIndex` -/
structure CBuffer where
  /-- The bytes of the vector. -/
  vBuffer : List Byte
  /-- The index of the first readable byte. -/
  readerIndex : ℕ
  /-- The index behind the last readable byte. -/
  writerIndex : ℕ
  deriving DecidableEq, Repr

/-- `std::copy` of a block into the vector, checked against its bounds. -/
def copyTo (v : List Byte) (pos : ℕ) (data : List Byte) : Except Fault (List Byte) :=
  if pos + data.length ≤ v.length then .ok (overwrite v pos data) else .error .outOfBounds

/-- The bytes between two positions of the vector, checked against its bounds. -/
def readFrom (v : List Byte) (first last : ℕ) : Except Fault (List Byte) :=
  if first ≤ last ∧ last ≤ v.length then .ok (window v first last) else .error .outOfBounds

/-- `std::vector<char>::resize`. -/
def vectorResize (v : List Byte) (n : ℕ) : Except Fault (List Byte) :=
  if n ≤ vectorMaxSize then .ok (resize v n 0) else .error .lengthError

namespace CBuffer

/-- `CBuffer::CBuffer`.
Source: `net/CBuffer.cpp`, `CBuffer::CBuffer` -/
def new : CBuffer where
  vBuffer := List.replicate (cheapPrepend + initialSize) 0
  readerIndex := cheapPrepend
  writerIndex := cheapPrepend

/-- Source: `net/CBuffer.cpp`, `CBuffer::GetReadableBytes` -/
def getReadableBytes (b : CBuffer) : ℕ := sizeSub b.writerIndex b.readerIndex

/-- Source: `net/CBuffer.cpp`, `CBuffer::GetWriteableBytes` -/
def getWriteableBytes (b : CBuffer) : ℕ := sizeSub b.vBuffer.length b.writerIndex

/-- Source: `net/CBuffer.cpp`, `CBuffer::GetPrependableBytes` -/
def getPrependableBytes (b : CBuffer) : ℕ := b.readerIndex

/-- `CBuffer::Peek`, as an offset from `__Begin()`.
Source: `net/CBuffer.cpp`, `CBuffer::Peek` -/
def peek (b : CBuffer) : ℕ := b.readerIndex

/-- `CBuffer::BeginWrite`, as an offset from `__Begin()`.
Source: `net/CBuffer.cpp`, `CBuffer::BeginWrite` -/
def beginWrite (b : CBuffer) : ℕ := b.writerIndex

/-- Source: `net/CBuffer.cpp`, `CBuffer::Retrieve` -/
def retrieve (b : CBuffer) (nLen : ℕ) : Except Fault CBuffer := do
  check (nLen ≤ b.getReadableBytes)
  return { b with readerIndex := sizeAdd b.readerIndex nLen }

/-- `CBuffer::RetrieveUtil`; the pointer is an offset from `__Begin()`.
Source: `net/CBuffer.cpp`, `CBuffer::RetrieveUtil` -/
def retrieveUtil (b : CBuffer) (cEnd : ℕ) : Except Fault CBuffer := do
  check (b.peek ≤ cEnd)
  check (cEnd ≤ b.beginWrite)
  b.retrieve (cEnd - b.peek)

/-- Source: `net/CBuffer.cpp`, `CBuffer::RetrieveAll` -/
def retrieveAll (b : CBuffer) : CBuffer :=
  { b with readerIndex := cheapPrepend, writerIndex := cheapPrepend }

/-- Source: `net/CBuffer.cpp`, `CBuffer::RetrieveAsString` -/
def retrieveAsString (b : CBuffer) : Except Fault (List Byte × CBuffer) := do
  let sStr ← readFrom b.vBuffer b.peek (sizeAdd b.peek b.getReadableBytes)
  return (sStr, b.retrieveAll)

/-- Source: `net/CBuffer.cpp`, `CBuffer::__MakeSpace` -/
def makeSpace (b : CBuffer) (nLen : ℕ) : Except Fault CBuffer :=
  if sizeAdd b.getWriteableBytes b.getPrependableBytes < nLen then do
    let v ← vectorResize b.vBuffer (sizeAdd b.writerIndex nLen)
    return { b with vBuffer := v }
  else do
    check (cheapPrepend < b.readerIndex)
    let nReadable := b.getReadableBytes
    let block ← readFrom b.vBuffer b.readerIndex b.writerIndex
    let v ← copyTo b.vBuffer cheapPrepend block
    let b' : CBuffer :=
      { vBuffer := v, readerIndex := cheapPrepend, writerIndex := sizeAdd cheapPrepend nReadable }
    check (nReadable = b'.getReadableBytes)
    return b'

/-- Source: `net/CBuffer.cpp`, `CBuffer::EnsureWriteableBytes` -/
def ensureWriteableBytes (b : CBuffer) (nLen : ℕ) : Except Fault CBuffer := do
  let b' ← if b.getWriteableBytes < nLen then b.makeSpace nLen else .ok b
  check (b'.getWriteableBytes ≥ nLen)
  return b'

/-- Source: `net/CBuffer.cpp`, `CBuffer::HasWritten` -/
def hasWritten (b : CBuffer) (nLen : ℕ) : CBuffer :=
  { b with writerIndex := sizeAdd b.writerIndex nLen }

/-- Bytes a caller writes at `BeginWrite()`. -/
def writeAtBeginWrite (b : CBuffer) (data : List Byte) : Except Fault CBuffer := do
  let v ← copyTo b.vBuffer b.beginWrite data
  return { b with vBuffer := v }

/-- `CBuffer::Append(const char *, size_t)`, which the other two overloads call. The bytes are given
by value: a pointer into the vector of the buffer itself, as in `Append(Peek(), n)`, is left out. It
would dangle once `EnsureWriteableBytes` has made the vector grow.
Source: `net/CBuffer.cpp`, `CBuffer::Append` -/
def append (b : CBuffer) (data : List Byte) : Except Fault CBuffer := do
  let b ← b.ensureWriteableBytes data.length
  let b ← b.writeAtBeginWrite data
  return b.hasWritten data.length

/-- `CBuffer::Append(const std::string &)`.
Source: `net/CBuffer.cpp`, `CBuffer::Append` -/
def appendString (b : CBuffer) (sStr : List Byte) : Except Fault CBuffer := b.append sStr

/-- `CBuffer::Append(const void *, size_t)`.
Source: `net/CBuffer.cpp`, `CBuffer::Append` -/
def appendVoid (b : CBuffer) (data : List Byte) : Except Fault CBuffer := b.append data

/-- Source: `net/CBuffer.cpp`, `CBuffer::Prepend` -/
def prepend (b : CBuffer) (data : List Byte) : Except Fault CBuffer := do
  check (data.length ≤ b.getPrependableBytes)
  let b : CBuffer := { b with readerIndex := sizeSub b.readerIndex data.length }
  let v ← copyTo b.vBuffer b.readerIndex data
  return { b with vBuffer := v }

/-- `CBuffer::Swap`: both buffers, after the call.
Source: `net/CBuffer.cpp`, `CBuffer::Swap` -/
def swap (b rhs : CBuffer) : CBuffer × CBuffer :=
  ({ vBuffer := rhs.vBuffer, readerIndex := rhs.readerIndex, writerIndex := rhs.writerIndex },
    { vBuffer := b.vBuffer, readerIndex := b.readerIndex, writerIndex := b.writerIndex })

/-! ## Well-formed buffers -/

/-- The indices of a well-formed buffer are in order and inside the vector. -/
structure WellFormed (b : CBuffer) : Prop where
  /-- The readable bytes are between the indices. -/
  reader_le : b.readerIndex ≤ b.writerIndex
  /-- The writer index is inside the vector. -/
  writer_le : b.writerIndex ≤ b.vBuffer.length
  /-- The vector is not longer than a vector can be. -/
  size_le : b.vBuffer.length ≤ vectorMaxSize

/-- The readable bytes: those between the two indices. -/
def content (b : CBuffer) : List Byte := window b.vBuffer b.readerIndex b.writerIndex

/-- The lengths for which `ensureWriteableBytes` finds room: there is room behind the writer
index; or there is not enough room at all and the vector grows, to a size it can have; or the
room in front, the cheap prepend excluded, makes up for what is missing behind. -/
def RoomFor (b : CBuffer) (nLen : ℕ) : Prop :=
  nLen ≤ b.getWriteableBytes ∨
    (b.getWriteableBytes + b.getPrependableBytes < nLen ∧
      b.writerIndex + nLen ≤ vectorMaxSize) ∨
    (cheapPrepend < b.readerIndex ∧
      nLen + cheapPrepend ≤ b.getWriteableBytes + b.getPrependableBytes)

instance (b : CBuffer) (nLen : ℕ) : Decidable (b.RoomFor nLen) := by
  unfold RoomFor
  infer_instance

/-- The constructor builds a well-formed buffer. -/
theorem wellFormed_new : new.WellFormed where
  reader_le := le_rfl
  writer_le := by
    change cheapPrepend ≤ (List.replicate (cheapPrepend + initialSize) (0 : Byte)).length
    rw [List.length_replicate]
    exact Nat.le_add_right _ _
  size_le := by
    change (List.replicate (cheapPrepend + initialSize) (0 : Byte)).length ≤ vectorMaxSize
    rw [List.length_replicate]
    decide

/-- The constructor builds an empty buffer. -/
@[simp] theorem content_new : new.content = [] := window_self _ _

section spec

variable {b b' : CBuffer}

/-- The vector of a well-formed buffer is shorter than `size_t` can count. -/
theorem WellFormed.size_lt (h : b.WellFormed) : b.vBuffer.length < sizeTCount :=
  lt_of_le_of_lt h.size_le (by decide)

/-- The readable bytes of a well-formed buffer are counted without wrap-around. -/
theorem WellFormed.getReadableBytes_eq (h : b.WellFormed) :
    b.getReadableBytes = b.writerIndex - b.readerIndex :=
  sizeSub_of_le h.reader_le (lt_of_le_of_lt h.writer_le h.size_lt)

/-- The writable bytes of a well-formed buffer are counted without wrap-around. -/
theorem WellFormed.getWriteableBytes_eq (h : b.WellFormed) :
    b.getWriteableBytes = b.vBuffer.length - b.writerIndex :=
  sizeSub_of_le h.writer_le h.size_lt

/-- The content has as many bytes as are readable. -/
theorem WellFormed.length_content (h : b.WellFormed) : b.content.length = b.getReadableBytes := by
  rw [h.getReadableBytes_eq]
  exact length_window h.writer_le

/-- The room behind the content and the room in front of it, in terms of the indices. -/
theorem WellFormed.room_eq (h : b.WellFormed) :
    sizeAdd b.getWriteableBytes b.getPrependableBytes =
      b.vBuffer.length - b.writerIndex + b.readerIndex := by
  have hlt := h.size_lt
  have hr := h.reader_le
  have hw := h.writer_le
  rw [h.getWriteableBytes_eq]
  exact sizeAdd_of_lt (by unfold getPrependableBytes; omega)

/-! ## What the member functions do -/

/-- `Yields b r q`: the call on `b` returned, and left a well-formed buffer with the content `q`
in a vector that is no shorter than before. -/
def Yields (b : CBuffer) (r : Except Fault CBuffer) (q : List Byte) : Prop :=
  ∃ b', r = .ok b' ∧ b'.WellFormed ∧ b'.content = q ∧ b.vBuffer.length ≤ b'.vBuffer.length

/-- `Retrieve` drops bytes from the front. -/
theorem retrieve_yields (h : b.WellFormed) {n : ℕ} (hn : n ≤ b.getReadableBytes) :
    Yields b (b.retrieve n) (b.content.drop n) := by
  have hlt := h.size_lt
  have hn' : n ≤ b.writerIndex - b.readerIndex := h.getReadableBytes_eq ▸ hn
  obtain ⟨hr, hw, hs⟩ := h
  have hadd : sizeAdd b.readerIndex n = b.readerIndex + n := sizeAdd_of_lt (by omega)
  refine ⟨{ b with readerIndex := b.readerIndex + n }, ?_, ⟨?_, hw, hs⟩, ?_, le_rfl⟩
  · simp [retrieve, hn, hadd, pure, Except.pure]
  · change b.readerIndex + n ≤ b.writerIndex
    omega
  · exact (drop_window _ _ _ _).symm

/-- `RetrieveUtil` of a pointer `k` bytes behind `Peek()` is `Retrieve(k)`. -/
theorem retrieveUtil_peek_add (h : b.WellFormed) {k : ℕ} (hk : k ≤ b.getReadableBytes) :
    b.retrieveUtil (b.peek + k) = b.retrieve k := by
  have hr := h.reader_le
  rw [h.getReadableBytes_eq] at hk
  have hend : b.peek + k ≤ b.beginWrite := by
    unfold peek beginWrite
    omega
  simp [retrieveUtil, hend]

/-- `RetrieveAll` empties the buffer; the vector must hold the cheap prepend. -/
theorem retrieveAll_yields (h : b.WellFormed) (hc : cheapPrepend ≤ b.vBuffer.length) :
    Yields b (.ok b.retrieveAll) [] :=
  ⟨_, rfl, ⟨le_rfl, hc, h.size_le⟩, window_self _ _, le_rfl⟩

/-- `RetrieveAsString` returns the content and empties the buffer. -/
theorem retrieveAsString_eq (h : b.WellFormed) :
    b.retrieveAsString = .ok (b.content, b.retrieveAll) := by
  have hend : sizeAdd b.peek b.getReadableBytes = b.writerIndex := by
    have hlt := h.size_lt
    have hr := h.reader_le
    have hw := h.writer_le
    rw [h.getReadableBytes_eq, sizeAdd_of_lt (by unfold peek; omega)]
    unfold peek
    omega
  have hin : b.peek ≤ b.writerIndex ∧ b.writerIndex ≤ b.vBuffer.length :=
    ⟨h.reader_le, h.writer_le⟩
  simp [retrieveAsString, hend, readFrom, hin, pure, Except.pure]
  rfl

/-- `Prepend` puts bytes in front. -/
theorem prepend_yields (h : b.WellFormed) {data : List Byte}
    (hd : data.length ≤ b.getPrependableBytes) :
    Yields b (b.prepend data) (data ++ b.content) := by
  have hlt := h.size_lt
  obtain ⟨hr, hw, hs⟩ := h
  have hd' : data.length ≤ b.readerIndex := hd
  have hsub : sizeSub b.readerIndex data.length = b.readerIndex - data.length :=
    sizeSub_of_le hd' (by omega)
  have hin : b.readerIndex - data.length + data.length ≤ b.vBuffer.length := by omega
  have hlen := length_overwrite hin
  refine ⟨{ b with readerIndex := b.readerIndex - data.length,
                   vBuffer := overwrite b.vBuffer (b.readerIndex - data.length) data },
    ?_, ⟨?_, hlen.symm ▸ hw, hlen.symm ▸ hs⟩, ?_, hlen.ge⟩
  · simp [prepend, hd, hsub, copyTo, hin, pure, Except.pure]
  · change b.readerIndex - data.length ≤ b.writerIndex
    omega
  · change window (overwrite b.vBuffer _ data) (b.readerIndex - data.length) b.writerIndex = _
    rw [window_overwrite_prepend (by omega) (by omega), Nat.sub_add_cancel hd']
    rfl

/-- Bytes written at `BeginWrite()` and declared by `HasWritten` are put at the back. -/
theorem write_yields (h : b.WellFormed) {data : List Byte}
    (hd : data.length ≤ b.getWriteableBytes) :
    Yields b (b.writeAtBeginWrite data >>= fun b => .ok (b.hasWritten data.length))
      (b.content ++ data) := by
  have hlt := h.size_lt
  rw [h.getWriteableBytes_eq] at hd
  obtain ⟨hr, hw, hs⟩ := h
  have hin : b.writerIndex + data.length ≤ b.vBuffer.length := by omega
  have hadd : sizeAdd b.writerIndex data.length = b.writerIndex + data.length :=
    sizeAdd_of_lt (by omega)
  have hlen := length_overwrite hin
  refine ⟨{ b with vBuffer := overwrite b.vBuffer b.writerIndex data,
                   writerIndex := b.writerIndex + data.length },
    ?_, ⟨?_, hlen.symm ▸ hin, hlen.symm ▸ hs⟩, window_overwrite_append hr hw, hlen.ge⟩
  · simp [writeAtBeginWrite, beginWrite, copyTo, hin, hasWritten, hadd, pure, Except.pure]
  · change b.readerIndex ≤ b.writerIndex + data.length
    omega

/-! ## The space logic -/

/-- `__MakeSpace` grows the vector when the room behind and in front does not suffice. -/
theorem makeSpace_grow (h : b.WellFormed) {n : ℕ}
    (hn : b.getWriteableBytes + b.getPrependableBytes < n)
    (hmax : b.writerIndex + n ≤ vectorMaxSize) :
    b.makeSpace n = .ok { b with vBuffer := resize b.vBuffer (b.writerIndex + n) 0 } := by
  have hroom := h.room_eq
  have hsum : sizeAdd b.getWriteableBytes b.getPrependableBytes < n := by
    rw [hroom, ← h.getWriteableBytes_eq]
    exact hn
  have hadd : sizeAdd b.writerIndex n = b.writerIndex + n :=
    sizeAdd_of_lt (lt_of_le_of_lt hmax (by decide))
  simp [makeSpace, hsum, hadd, vectorResize, hmax, pure, Except.pure]

/-- `__MakeSpace` slides the content down to the cheap prepend when the room suffices and the
reader index is behind the cheap prepend. -/
theorem makeSpace_slide (h : b.WellFormed) {n : ℕ}
    (hn : n ≤ b.getWriteableBytes + b.getPrependableBytes) (hr : cheapPrepend < b.readerIndex) :
    b.makeSpace n = .ok
      { vBuffer := overwrite b.vBuffer cheapPrepend b.content
        readerIndex := cheapPrepend
        writerIndex := cheapPrepend + b.getReadableBytes } := by
  have hroom := h.room_eq
  have hlt := h.size_lt
  have hle := h.reader_le
  have hw := h.writer_le
  have hread := h.getReadableBytes_eq
  have hnot : ¬ sizeAdd b.getWriteableBytes b.getPrependableBytes < n := by
    rw [hroom, ← h.getWriteableBytes_eq, not_lt]
    exact hn
  have hblock : readFrom b.vBuffer b.readerIndex b.writerIndex = .ok b.content :=
    if_pos ⟨hle, hw⟩
  have hcopy : copyTo b.vBuffer cheapPrepend b.content =
      .ok (overwrite b.vBuffer cheapPrepend b.content) :=
    if_pos (by rw [h.length_content, hread]; omega)
  have hend : cheapPrepend + b.getReadableBytes < sizeTCount := by omega
  have hadd : sizeAdd cheapPrepend b.getReadableBytes = cheapPrepend + b.getReadableBytes :=
    sizeAdd_of_lt hend
  have hcheck : ∀ v, b.getReadableBytes =
      getReadableBytes ⟨v, cheapPrepend, cheapPrepend + b.getReadableBytes⟩ := by
    intro v
    change _ = sizeSub (cheapPrepend + b.getReadableBytes) cheapPrepend
    rw [sizeSub_of_le (Nat.le_add_right _ _) hend, Nat.add_sub_cancel_left]
  simp [makeSpace, hnot, hr, hblock, hcopy, hadd, ← hcheck, pure, Except.pure]

/-- With room for `n` bytes `EnsureWriteableBytes(n)` keeps the content and leaves at least `n`
writable bytes. -/
theorem ensureWriteableBytes_of_roomFor (h : b.WellFormed) {n : ℕ} (hroom : b.RoomFor n) :
    ∃ b', b.ensureWriteableBytes n = .ok b' ∧ b'.WellFormed ∧ b'.content = b.content ∧
      b.vBuffer.length ≤ b'.vBuffer.length ∧ n ≤ b'.getWriteableBytes := by
  have hwr := h.getWriteableBytes_eq
  have hle := h.reader_le
  have hw := h.writer_le
  have hs := h.size_le
  by_cases hfit : n ≤ b.getWriteableBytes
  · refine ⟨b, ?_, h, rfl, le_rfl, hfit⟩
    simp [ensureWriteableBytes, Nat.not_lt.mpr hfit, hfit, pure, Except.pure]
  have hlt : b.getWriteableBytes < n := Nat.lt_of_not_le hfit
  suffices hmake : ∃ b', b.makeSpace n = .ok b' ∧ b'.WellFormed ∧ b'.content = b.content ∧
      b.vBuffer.length ≤ b'.vBuffer.length ∧ n ≤ b'.getWriteableBytes by
    obtain ⟨b', hok, hrest⟩ := hmake
    refine ⟨b', ?_, hrest⟩
    simp [ensureWriteableBytes, hlt, hok, hrest.2.2.2, pure, Except.pure]
  rcases hroom with hfit' | ⟨hgrow, hmax⟩ | ⟨hreader, hslide⟩
  · exact absurd hfit' hfit
  · have hprep : b.getPrependableBytes = b.readerIndex := rfl
    have hwf : WellFormed { b with vBuffer := resize b.vBuffer (b.writerIndex + n) 0 } :=
      ⟨hle, by simp, by simpa using hmax⟩
    refine ⟨_, makeSpace_grow h hgrow hmax, hwf, ?_, ?_, ?_⟩
    · exact window_resize (Nat.le_add_right b.writerIndex n) hw
    · simp
      omega
    · rw [hwf.getWriteableBytes_eq]
      simp
  · have hprep : b.getPrependableBytes = b.readerIndex := rfl
    have hread := h.getReadableBytes_eq
    have hin : cheapPrepend + b.content.length ≤ b.vBuffer.length := by
      rw [h.length_content]
      omega
    have hlen := length_overwrite hin
    have hwf : WellFormed
        { vBuffer := overwrite b.vBuffer cheapPrepend b.content
          readerIndex := cheapPrepend
          writerIndex := cheapPrepend + b.getReadableBytes } :=
      ⟨Nat.le_add_right _ _, by rw [hlen, ← h.length_content]; exact hin, by rw [hlen]; exact hs⟩
    refine ⟨_, makeSpace_slide h (by omega) hreader, hwf, ?_, hlen.ge, ?_⟩
    · change window _ cheapPrepend (cheapPrepend + b.getReadableBytes) = b.content
      rw [← h.length_content]
      exact window_overwrite_self (by omega)
    · rw [hwf.getWriteableBytes_eq]
      simp only [hlen]
      omega

/-- The three assertions of the constructor. -/
theorem new_asserts : new.getReadableBytes = 0 ∧ new.getWriteableBytes = initialSize ∧
    new.getPrependableBytes = cheapPrepend := by
  have hlen : new.vBuffer.length = cheapPrepend + initialSize := List.length_replicate
  refine ⟨?_, ?_, rfl⟩
  · rw [wellFormed_new.getReadableBytes_eq]
    exact Nat.sub_self _
  · rw [wellFormed_new.getWriteableBytes_eq, hlen]
    exact Nat.add_sub_cancel_left _ _

/-- Without room for `n` bytes `EnsureWriteableBytes(n)` fails, or leaves a buffer whose writer
index is outside the vector. -/
theorem not_wellFormed_of_not_roomFor (h : b.WellFormed) {n : ℕ} (hn : n < sizeTCount)
    (hroom : ¬ b.RoomFor n) (hok : b.ensureWriteableBytes n = .ok b') :
    b'.vBuffer.length < b'.writerIndex := by
  have hwr := h.getWriteableBytes_eq
  have hsum := h.room_eq
  have hle := h.reader_le
  have hw := h.writer_le
  have hs := h.size_le
  have hprep : b.getPrependableBytes = b.readerIndex := rfl
  unfold RoomFor at hroom
  push Not at hroom
  obtain ⟨hlt, hgrow, hslide⟩ := hroom
  rw [ensureWriteableBytes, if_pos hlt, bind_eq_ok_iff] at hok
  obtain ⟨b'', hmake, hok⟩ := hok
  obtain ⟨_, hcheck, hok⟩ := bind_eq_ok_iff.mp hok
  rw [check_eq_ok_iff] at hcheck
  cases hok
  by_cases hless : b.getWriteableBytes + b.getPrependableBytes < n
  · -- the sum `m_nWriterIndex + nLen` is no size a vector can have, or wraps around
    have hmax := hgrow hless
    rw [makeSpace, if_pos (by omega), bind_eq_ok_iff] at hmake
    obtain ⟨v, hv, hmake⟩ := hmake
    cases hmake
    unfold vectorResize at hv
    split_ifs at hv with hsize
    cases hv
    simp only [length_resize]
    by_cases hwrap : b.writerIndex + n < sizeTCount
    · rw [sizeAdd_of_lt hwrap] at hsize
      omega
    · have hlt64 := h.size_lt
      unfold sizeAdd
      rw [Nat.mod_eq_sub_mod (by omega), Nat.mod_eq_of_lt (by omega)]
      omega
  · -- the content slides down, but the room in front of it does not make up for the rest
    have hreader : cheapPrepend < b.readerIndex := by
      by_contra hnot
      rw [makeSpace, if_neg (by omega), check_of_not hnot, error_bind] at hmake
      cases hmake
    have hshort := hslide hreader
    have hread := h.getReadableBytes_eq
    have hin : cheapPrepend + b.content.length ≤ b.vBuffer.length := by
      rw [h.length_content]
      omega
    have hlen := length_overwrite hin
    rw [makeSpace_slide h (by omega) hreader] at hmake
    cases hmake
    change n ≤ sizeSub (overwrite _ _ _).length (cheapPrepend + b.getReadableBytes) at hcheck
    rw [hlen, sizeSub_of_le (by omega) h.size_lt] at hcheck
    omega

/-- `Append` with room puts bytes at the back. -/
theorem append_yields (h : b.WellFormed) {data : List Byte} (hroom : b.RoomFor data.length) :
    Yields b (b.append data) (b.content ++ data) := by
  obtain ⟨b₁, hens, hwf, hcontent, hlen, hfit⟩ := ensureWriteableBytes_of_roomFor h hroom
  obtain ⟨b₂, hok, hwf₂, hcontent₂, hlen₂⟩ := write_yields hwf hfit
  refine ⟨b₂, ?_, hwf₂, by rw [hcontent₂, hcontent], hlen.trans hlen₂⟩
  simp only [append, hens, ok_bind]
  exact hok

/-- `Append` of more than fits behind the content fails an assertion if nothing has been consumed
and the cheap prepend, which `__MakeSpace` counts as room, would make up for it. -/
theorem append_assertion (h : b.WellFormed) (hreader : b.readerIndex ≤ cheapPrepend)
    {data : List Byte} (hmore : b.getWriteableBytes < data.length)
    (hle : data.length ≤ b.getWriteableBytes + b.getPrependableBytes) :
    b.append data = .error .assertion := by
  have hroom : ¬ sizeAdd b.getWriteableBytes b.getPrependableBytes < data.length := by
    have hsum := h.room_eq
    have hwriteable := h.getWriteableBytes_eq
    have hprependable : b.getPrependableBytes = b.readerIndex := rfl
    omega
  rw [append, ensureWriteableBytes, if_pos hmore, makeSpace, if_neg hroom,
    check_of_not (not_lt.mpr hreader)]
  rfl

/-- `Append` without room does not return. -/
theorem append_ne_ok_of_not_roomFor (h : b.WellFormed) {data : List Byte}
    (hn : data.length < sizeTCount) (hroom : ¬ b.RoomFor data.length) (b' : CBuffer) :
    b.append data ≠ .ok b' := by
  intro hok
  obtain ⟨b₁, hens, hok⟩ := bind_eq_ok_iff.mp hok
  obtain ⟨b₂, hwrite, -⟩ := bind_eq_ok_iff.mp hok
  obtain ⟨v, hcopy, -⟩ := bind_eq_ok_iff.mp hwrite
  have hlt := not_wellFormed_of_not_roomFor h hn hroom hens
  unfold copyTo beginWrite at hcopy
  rw [if_neg (by omega)] at hcopy
  cases hcopy

end spec

end CBuffer

end Neconet
