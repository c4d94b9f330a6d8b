import Neconet.Net.Buffer

/-!
# `CBuffer::ReadFd`

Reading from a descriptor into a buffer: `readv` fills the tail of the vector and then a block of
65536 bytes on the stack, and what landed in the block is appended.

* `ReadvResult`, `readFd`: the result of `readv`, and the member function.
* `ReadsExactly`: what a caller expects of the call.
* `ReadRoom`: the results for which the append behind a full vector works.
* `readsExactly_iff`: `ReadFd` does what is expected exactly for these results.
* `not_readsExactly_1025`: on a new buffer, one byte more than fits.
-/

namespace Neconet

open Slice

/-! ## The call -/

/-- `sizeof(cExtraBuf)` in `ReadFd`.
Source: `net/CBuffer.cpp`, `CBuffer::ReadFd` -/
def extraBufSize : ℕ := 65536

/-- The conversion from `ssize_t` to `size_t`. -/
def ssizeToSize (n : ℤ) : ℕ := (n % sizeTCount).toNat

/-- The conversion from `size_t` to `ssize_t`. -/
def sizeToSsize (n : ℕ) : ℤ := if n < 2 ^ 63 then n else n - sizeTCount

/-- The result of `readv`. -/
inductive ReadvResult
  /-- `-1`, with the error number. -/
  | error (errno : ℤ)
  /-- The bytes read, in order over the two blocks. -/
  | bytes (data : List Byte)
  deriving DecidableEq, Repr

namespace CBuffer

/-- `ReadFd`: the buffer, the result, and what is stored in `*pSavedErrno`.
Source: `net/CBuffer.cpp`, `CBuffer::ReadFd` -/
def readFd (b : CBuffer) : ReadvResult → Except Fault (CBuffer × ℕ × Option ℤ)
  | .error errno => return (b, ssizeToSize (-1), some errno)
  | .bytes data => do
      let nWriteable := b.getWriteableBytes
      -- `readv`: the tail of the vector first, then `cExtraBuf`
      let b ← b.writeAtBeginWrite (data.take nWriteable)
      let cExtraBuf := data.drop nWriteable
      let n := data.length
      if n ≤ nWriteable then
        return ({ b with writerIndex := sizeAdd b.writerIndex n }, ssizeToSize n, none)
      else do
        let b : CBuffer := { b with writerIndex := b.vBuffer.length }
        let b ← b.append (cExtraBuf.take (n - nWriteable))
        return (b, ssizeToSize n, none)

/-- What `readv` may return: an error, or as many bytes as it was offered at most. -/
def Offers (b : CBuffer) : ReadvResult → Prop
  | .error _ => True
  | .bytes data => data.length ≤ b.getWriteableBytes + extraBufSize

/-- What a caller expects of `ReadFd`: it returns, and leaves a well-formed buffer. After an error
the content and both indices are what they were, `*pSavedErrno` is set, and the result is negative
as an `ssize_t`; otherwise the bytes are at the back, and the result is their number. -/
def ReadsExactly (b : CBuffer) (r : ReadvResult) : Prop :=
  ∃ b' n savedErrno, b.readFd r = .ok (b', n, savedErrno) ∧ b'.WellFormed ∧
    match r with
    | .error errno => b'.content = b.content ∧ b'.readerIndex = b.readerIndex ∧
        b'.writerIndex = b.writerIndex ∧ savedErrno = some errno ∧ sizeToSsize n < 0
    | .bytes data => b'.content = b.content ++ data ∧ n = data.length ∧ savedErrno = none

/-- The results with room: an error; bytes that fit into the tail of the vector; a spill that is
longer than the room in front, for which the vector grows, to a size it can have; or one for which
there is room in front, the cheap prepend excluded. -/
def ReadRoom (b : CBuffer) : ReadvResult → Prop
  | .error _ => True
  | .bytes data => data.length ≤ b.getWriteableBytes ∨
      (b.readerIndex < data.length - b.getWriteableBytes ∧
        b.vBuffer.length + (data.length - b.getWriteableBytes) ≤ vectorMaxSize) ∨
      data.length - b.getWriteableBytes + cheapPrepend ≤ b.readerIndex

instance (b : CBuffer) (r : ReadvResult) : Decidable (b.ReadRoom r) := by
  cases r <;> unfold ReadRoom <;> infer_instance

/-! ## The two parts of a read -/

section spec

variable {b : CBuffer} {data : List Byte}

/-- The number of bytes read, as the caller gets it. -/
theorem ssizeToSize_natCast {n : ℕ} (h : n < sizeTCount) : ssizeToSize n = n := by
  have hmod : ((n : ℤ) % sizeTCount) = n := Int.emod_eq_of_lt (by omega) (by exact_mod_cast h)
  unfold ssizeToSize
  rw [hmod, Int.toNat_natCast]

/-- `-1` comes back as a negative number. -/
theorem sizeToSsize_error : sizeToSsize (ssizeToSize (-1)) < 0 := by decide

/-- What `readv` may return is counted by `size_t`. -/
theorem length_lt_of_offers (h : b.WellFormed) (hoffers : b.Offers (.bytes data)) :
    data.length < sizeTCount := by
  have hlen : data.length ≤ b.getWriteableBytes + extraBufSize := hoffers
  have hsize := h.size_le
  rw [h.getWriteableBytes_eq] at hlen
  simp only [extraBufSize, vectorMaxSize, sizeTCount] at hlen hsize ⊢
  omega

/-- The buffer when `readv` has filled its vector. -/
def filled (b : CBuffer) (data : List Byte) : CBuffer where
  vBuffer := overwrite b.vBuffer b.writerIndex (data.take b.getWriteableBytes)
  readerIndex := b.readerIndex
  writerIndex := b.vBuffer.length

/-- A filled buffer is well formed, with the bytes in the vector at the back of its content. -/
theorem filled_spec (h : b.WellFormed) (hmore : b.getWriteableBytes < data.length) :
    (b.filled data).WellFormed ∧
      (b.filled data).content = b.content ++ data.take b.getWriteableBytes ∧
      (b.filled data).getWriteableBytes = 0 ∧
      (b.filled data).vBuffer.length = b.vBuffer.length := by
  have hr := h.reader_le
  have hw := h.writer_le
  have hs := h.size_le
  have htail : (data.take b.getWriteableBytes).length = b.vBuffer.length - b.writerIndex := by
    rw [List.length_take, Nat.min_eq_left hmore.le]
    exact h.getWriteableBytes_eq
  have hin : b.writerIndex + (data.take b.getWriteableBytes).length = b.vBuffer.length := by
    omega
  have hlen : (b.filled data).vBuffer.length = b.vBuffer.length := length_overwrite hin.le
  have hwf : (b.filled data).WellFormed := by
    refine ⟨hr.trans hw, ?_, ?_⟩
    · rw [hlen]
      exact le_rfl
    · rw [hlen]
      exact hs
  refine ⟨hwf, ?_, ?_, hlen⟩
  · change window _ b.readerIndex b.vBuffer.length = _
    rw [← hin]
    exact window_overwrite_append hr hw
  · rw [hwf.getWriteableBytes_eq, hlen]
    exact Nat.sub_self _

/-- `ReadFd` of bytes that fit into the tail of the vector. -/
theorem readFd_of_fits (h : b.WellFormed) (hfits : data.length ≤ b.getWriteableBytes) :
    ∃ b', b.readFd (.bytes data) = .ok (b', ssizeToSize data.length, none) ∧ b'.WellFormed ∧
      b'.content = b.content ++ data := by
  obtain ⟨b', hok, hwf, hcontent, -⟩ := write_yields h hfits
  refine ⟨b', ?_, hwf, hcontent⟩
  obtain ⟨b₁, hwrite, hok⟩ := bind_eq_ok_iff.mp hok
  rw [readFd, List.take_of_length_le hfits, hwrite, ok_bind, if_pos hfits]
  cases Except.ok.inj hok
  rfl

/-- `ReadFd` of more bytes fills the vector and appends the rest. -/
theorem readFd_of_spill (h : b.WellFormed) (hmore : b.getWriteableBytes < data.length) :
    b.readFd (.bytes data) = do
      let b' ← (b.filled data).append (data.drop b.getWriteableBytes)
      return (b', ssizeToSize data.length, none) := by
  have htail : (data.take b.getWriteableBytes).length = b.vBuffer.length - b.writerIndex := by
    rw [List.length_take, Nat.min_eq_left hmore.le]
    exact h.getWriteableBytes_eq
  have hw := h.writer_le
  have hin : b.writerIndex + (data.take b.getWriteableBytes).length ≤ b.vBuffer.length := by
    omega
  have hwrite : b.writeAtBeginWrite (data.take b.getWriteableBytes) =
      .ok { b with vBuffer := (b.filled data).vBuffer } := by
    unfold writeAtBeginWrite copyTo beginWrite
    rw [if_pos hin]
    rfl
  have hrest : (data.drop b.getWriteableBytes).take (data.length - b.getWriteableBytes) =
      data.drop b.getWriteableBytes := by
    apply List.take_of_length_le
    rw [List.length_drop]
  have hlen := (filled_spec h hmore).2.2.2
  rw [readFd, hwrite, ok_bind, if_neg (Nat.not_le.mpr hmore), hrest]
  simp only [hlen]
  rfl

/-- There is room for the spill in a filled buffer exactly if the read has room. -/
theorem roomFor_filled_iff (h : b.WellFormed) (hmore : b.getWriteableBytes < data.length) :
    (b.filled data).RoomFor (data.drop b.getWriteableBytes).length ↔
      b.ReadRoom (.bytes data) := by
  obtain ⟨-, -, hnone, -⟩ := filled_spec h hmore
  have hreader : (b.filled data).readerIndex = b.readerIndex := rfl
  have hwriter : (b.filled data).writerIndex = b.vBuffer.length := rfl
  unfold RoomFor ReadRoom
  rw [hnone, hreader, hwriter, List.length_drop]
  simp only [getPrependableBytes, hreader, cheapPrepend]
  omega

/-- A read with room puts the bytes at the back. -/
theorem readFd_of_room (h : b.WellFormed) (hroom : b.ReadRoom (.bytes data)) :
    ∃ b', b.readFd (.bytes data) = .ok (b', ssizeToSize data.length, none) ∧ b'.WellFormed ∧
      b'.content = b.content ++ data := by
  by_cases hfits : data.length ≤ b.getWriteableBytes
  · exact readFd_of_fits h hfits
  · have hmore : b.getWriteableBytes < data.length := Nat.lt_of_not_le hfits
    obtain ⟨hwf, hcontent, -, -⟩ := filled_spec h hmore
    obtain ⟨b', hok, hwf', hcontent', -⟩ :=
      append_yields hwf ((roomFor_filled_iff h hmore).mpr hroom)
    refine ⟨b', ?_, hwf', ?_⟩
    · rw [readFd_of_spill h hmore, hok]
      rfl
    · rw [hcontent', hcontent, List.append_assoc, List.take_append_drop]

/-- A read without room does not return. -/
theorem readFd_ne_ok_of_not_room (h : b.WellFormed) (hoffers : b.Offers (.bytes data))
    (hroom : ¬ b.ReadRoom (.bytes data)) (res : CBuffer × ℕ × Option ℤ) :
    b.readFd (.bytes data) ≠ .ok res := by
  intro hok
  have hmore : b.getWriteableBytes < data.length := by
    by_contra hfits
    exact hroom (Or.inl (Nat.le_of_not_lt hfits))
  obtain ⟨hwf, -, -, -⟩ := filled_spec h hmore
  have hlt := length_lt_of_offers h hoffers
  rw [readFd_of_spill h hmore] at hok
  obtain ⟨b', happend, -⟩ := bind_eq_ok_iff.mp hok
  apply append_ne_ok_of_not_roomFor hwf _ _ b' happend
  · rw [List.length_drop]
    omega
  · rw [roomFor_filled_iff h hmore]
    exact hroom

end spec

/-! ## What the caller gets -/

/-- **`ReadFd` stores exactly what was read**, on every well-formed buffer and for every result of
`readv`, if and only if the result has room. -/
theorem readsExactly_iff {b : CBuffer} (h : b.WellFormed) {r : ReadvResult} (hoffers : b.Offers r) :
    b.ReadsExactly r ↔ b.ReadRoom r := by
  cases r with
  | error errno =>
      refine ⟨fun _ => trivial, fun _ => ?_⟩
      exact ⟨b, _, _, rfl, h, rfl, rfl, rfl, rfl, sizeToSsize_error⟩
  | bytes data =>
      constructor
      · rintro ⟨b', n, savedErrno, hok, -⟩
        by_contra hroom
        exact readFd_ne_ok_of_not_room h hoffers hroom _ hok
      · intro hroom
        obtain ⟨b', hok, hwf, hcontent⟩ := readFd_of_room h hroom
        rw [ssizeToSize_natCast (length_lt_of_offers h hoffers)] at hok
        exact ⟨b', _, _, hok, hwf, hcontent, rfl, rfl⟩

/-- The theorem on a new buffer and a read of 1033 bytes, for which the vector grows. -/
theorem readsExactly_1033 :
    CBuffer.new.ReadsExactly (.bytes (List.replicate 1033 7)) := by
  generalize hdata : List.replicate 1033 (7 : Byte) = data
  have hn : data.length = 1033 := by rw [← hdata, List.length_replicate]
  have hwriteable : CBuffer.new.getWriteableBytes = 1024 := new_asserts.2.1
  have hlen : CBuffer.new.vBuffer.length = 1032 := List.length_replicate
  have hreader : CBuffer.new.readerIndex = 8 := rfl
  refine (readsExactly_iff wellFormed_new ?_).mpr (Or.inr (Or.inl ⟨?_, ?_⟩))
  · simp [Offers, hwriteable, hn, extraBufSize]
  · simp [hwriteable, hn, hreader]
  · simp [hwriteable, hn, hlen, vectorMaxSize]

/-- **One byte more than fits, on a new buffer**: the spill of one byte is not longer than the cheap
prepend in front, so that `__MakeSpace` decides to slide and its assertion fails. -/
theorem not_readsExactly_1025 : CBuffer.new.WellFormed ∧
    CBuffer.new.Offers (.bytes (List.replicate 1025 7)) ∧
    ¬ CBuffer.new.ReadsExactly (.bytes (List.replicate 1025 7)) := by
  generalize hdata : List.replicate 1025 (7 : Byte) = data
  have hn : data.length = 1025 := by rw [← hdata, List.length_replicate]
  have hwriteable : CBuffer.new.getWriteableBytes = 1024 := new_asserts.2.1
  have hreader : CBuffer.new.readerIndex = 8 := rfl
  have hoffers : CBuffer.new.Offers (.bytes data) := by
    simp [Offers, hwriteable, hn, extraBufSize]
  refine ⟨wellFormed_new, hoffers, ?_⟩
  rintro ⟨b', n, savedErrno, hok, -⟩
  apply readFd_ne_ok_of_not_room wellFormed_new hoffers _ _ hok
  simp [ReadRoom, hwriteable, hn, hreader, cheapPrepend]

end CBuffer

end Neconet
