import Neconet.Net.BufferQueue
import Neconet.Net.BufferRead
import Neconet.Net.BufferShrink

/-!
# How long the vector of a buffer gets

`__MakeSpace` grows the vector only if the bytes to come are more than the room behind and in front
of the content. So the consumed bytes in front, which it does not give back when it grows, are fewer
than the bytes to come, and the vector is never longer than twice what the buffer has had to hold.

* `makeSpace_shape`, `append_shape`, `readFd_shape`: the indices and the length of the vector after
  a call.
* `BufferCall`: the calls on a buffer, `ReadFd` among them.
* `capacity_run`: in every run, the vector has its initial length, or at most twice the largest
  demand.
-/

namespace Neconet

open Slice Transition

namespace CBuffer

section shape

variable {b b' : CBuffer} {n : ℕ} {data : List Byte}

/-! ## Indices -/

/-- Room was made for `n` bytes: there was enough behind the content; or the vector has grown and
the indices have stayed; or the content has moved down to the cheap prepend. -/
inductive Shape (b : CBuffer) (n : ℕ) (b' : CBuffer) : Prop
  | fits (hn : n ≤ b.getWriteableBytes) (hlen : b'.vBuffer.length = b.vBuffer.length)
      (hreader : b'.readerIndex = b.readerIndex) (hwriter : b'.writerIndex = b.writerIndex)
  | grows (hn : b.getWriteableBytes + b.readerIndex < n)
      (hlen : b'.vBuffer.length = b.writerIndex + n) (hreader : b'.readerIndex = b.readerIndex)
      (hwriter : b'.writerIndex = b.writerIndex)
  | slides (hn : b.getWriteableBytes < n) (hbehind : cheapPrepend < b.readerIndex)
      (hlen : b'.vBuffer.length = b.vBuffer.length) (hreader : b'.readerIndex = cheapPrepend)
      (hwriter : b'.writerIndex = cheapPrepend + b.getReadableBytes)

/-- `EnsureWriteableBytes` with room. -/
theorem ensureWriteableBytes_shape (h : b.WellFormed) (hroom : b.RoomFor n)
    (hok : b.ensureWriteableBytes n = .ok b') : Shape b n b' := by
  by_cases hfit : n ≤ b.getWriteableBytes
  · rw [ensureWriteableBytes, if_neg (Nat.not_lt.mpr hfit), bind_eq_ok_iff] at hok
    obtain ⟨b₁, hsame, hok⟩ := hok
    obtain ⟨-, -, hok⟩ := bind_eq_ok_iff.mp hok
    cases Except.ok.inj hsame
    cases Except.ok.inj hok
    exact .fits hfit rfl rfl rfl
  · rw [ensureWriteableBytes, if_pos (Nat.lt_of_not_le hfit), bind_eq_ok_iff] at hok
    obtain ⟨b₁, hmake, hok⟩ := hok
    obtain ⟨-, -, hok⟩ := bind_eq_ok_iff.mp hok
    cases Except.ok.inj hok
    rcases hroom with hfit' | ⟨hgrow, hmax⟩ | ⟨hbehind, hslide⟩
    · exact absurd hfit' hfit
    · rw [makeSpace_grow h hgrow hmax] at hmake
      cases Except.ok.inj hmake
      exact .grows hgrow (length_resize _ _ _) rfl rfl
    · rw [makeSpace_slide h (by omega) hbehind] at hmake
      cases Except.ok.inj hmake
      have hle := h.reader_le
      have hw := h.writer_le
      have hin : cheapPrepend + b.content.length ≤ b.vBuffer.length := by
        rw [h.length_content, h.getReadableBytes_eq]
        omega
      exact .slides (Nat.lt_of_not_le hfit) hbehind (length_overwrite hin) rfl rfl

/-- Bytes written at `BeginWrite()` and declared by `HasWritten`. -/
theorem write_shape (h : b.WellFormed) (hd : data.length ≤ b.getWriteableBytes)
    (hok : (b.writeAtBeginWrite data >>= fun b => .ok (b.hasWritten data.length)) = .ok b') :
    b'.vBuffer.length = b.vBuffer.length ∧ b'.readerIndex = b.readerIndex ∧
      b'.writerIndex = b.writerIndex + data.length := by
  have hlt := h.size_lt
  have hw := h.writer_le
  rw [h.getWriteableBytes_eq] at hd
  obtain ⟨b₁, hwrite, hok⟩ := bind_eq_ok_iff.mp hok
  obtain ⟨v, hcopy, hwrite⟩ := bind_eq_ok_iff.mp hwrite
  have hin : b.beginWrite + data.length ≤ b.vBuffer.length := by
    unfold beginWrite
    omega
  rw [copyTo, if_pos hin] at hcopy
  cases Except.ok.inj hcopy
  cases Except.ok.inj hwrite
  cases Except.ok.inj hok
  refine ⟨length_overwrite hin, rfl, sizeAdd_of_lt ?_⟩
  change b.writerIndex + data.length < sizeTCount
  omega

/-- `Append` that returns. -/
theorem append_shape (h : b.WellFormed) (hn : data.length < sizeTCount)
    (hok : b.append data = .ok b') : ∃ b₁, Shape b data.length b₁ ∧
      b'.vBuffer.length = b₁.vBuffer.length ∧ b'.readerIndex = b₁.readerIndex ∧
      b'.writerIndex = b₁.writerIndex + data.length := by
  have hroom : b.RoomFor data.length := by
    by_contra hnot
    exact append_ne_ok_of_not_roomFor h hn hnot b' hok
  obtain ⟨b₁, hens, hwf, -, -, hfit⟩ := ensureWriteableBytes_of_roomFor h hroom
  rw [append, hens, ok_bind] at hok
  exact ⟨b₁, ensureWriteableBytes_shape h hroom hens, write_shape hwf hfit hok⟩

/-- `ReadFd` that returns: the bytes fitted behind the content, or the rest was appended to a filled
buffer. -/
theorem readFd_shape (h : b.WellFormed) (hoffers : b.Offers (.bytes data))
    {r : CBuffer × ℕ × Option ℤ} (hok : b.readFd (.bytes data) = .ok r) :
    (data.length ≤ b.getWriteableBytes ∧ r.1.vBuffer.length = b.vBuffer.length ∧
      r.1.readerIndex = b.readerIndex ∧ r.1.writerIndex = b.writerIndex + data.length) ∨
    (b.getWriteableBytes < data.length ∧ ∃ b₁,
      Shape (b.filled data) (data.length - b.getWriteableBytes) b₁ ∧
      r.1.vBuffer.length = b₁.vBuffer.length ∧ r.1.readerIndex = b₁.readerIndex ∧
      r.1.writerIndex = b₁.writerIndex + (data.length - b.getWriteableBytes)) := by
  by_cases hfits : data.length ≤ b.getWriteableBytes
  · left
    obtain ⟨b', hwrite, -⟩ := write_yields h hfits
    have hshape := write_shape h hfits hwrite
    obtain ⟨b₁, hwritten, hwrite⟩ := bind_eq_ok_iff.mp hwrite
    rw [readFd, List.take_of_length_le hfits, hwritten, ok_bind, if_pos hfits] at hok
    cases Except.ok.inj hok
    cases Except.ok.inj hwrite
    exact ⟨hfits, hshape⟩
  · right
    have hmore : b.getWriteableBytes < data.length := Nat.lt_of_not_le hfits
    obtain ⟨hwf, -, -, -⟩ := filled_spec h hmore
    have hlt := length_lt_of_offers h hoffers
    rw [readFd_of_spill h hmore] at hok
    obtain ⟨b', happend, hok⟩ := bind_eq_ok_iff.mp hok
    cases Except.ok.inj hok
    have hshape := append_shape hwf (by rw [List.length_drop]; omega) happend
    rw [List.length_drop] at hshape
    exact ⟨hmore, hshape⟩

/-! ## The length of the vector -/

/-- Room for `n` bytes makes the vector no shorter, and at most twice as long as the content and the
`n` bytes. -/
theorem Shape.length_le (h : b.WellFormed) (hshape : Shape b n b') :
    b.vBuffer.length ≤ b'.vBuffer.length ∧
      b'.vBuffer.length ≤ max b.vBuffer.length (2 * (b.getReadableBytes + n)) := by
  have hread := h.getReadableBytes_eq
  have hwrite := h.getWriteableBytes_eq
  have hle := h.reader_le
  have hw := h.writer_le
  cases hshape with
  | fits hn hlen hreader hwriter =>
      rw [hlen]
      exact ⟨le_rfl, le_max_left _ _⟩
  | grows hn hlen hreader hwriter =>
      -- what the caller has consumed in front is less than the bytes to come
      rw [hlen]
      omega
  | slides hn hbehind hlen hreader hwriter =>
      rw [hlen]
      exact ⟨le_rfl, le_max_left _ _⟩

/-- `ReadFd` that returns. -/
theorem readFd_length_le (h : b.WellFormed) (hoffers : b.Offers (.bytes data))
    {r : CBuffer × ℕ × Option ℤ} (hok : b.readFd (.bytes data) = .ok r) :
    b.vBuffer.length ≤ r.1.vBuffer.length ∧
      r.1.vBuffer.length ≤ max b.vBuffer.length (2 * (b.getReadableBytes + data.length)) := by
  rcases readFd_shape h hoffers hok with ⟨-, hlen, -⟩ | ⟨hmore, b₁, hshape, hlen, -⟩
  · rw [hlen]
    exact ⟨le_rfl, le_max_left _ _⟩
  · obtain ⟨hwf, hcontent, -, hfilled⟩ := filled_spec h hmore
    obtain ⟨hle, hbound⟩ := hshape.length_le hwf
    have hread : (b.filled data).getReadableBytes = b.getReadableBytes + b.getWriteableBytes := by
      rw [← hwf.length_content, hcontent, List.length_append, h.length_content, List.length_take,
        Nat.min_eq_left hmore.le]
    rw [hfilled] at hle hbound
    rw [hread] at hbound
    rw [hlen]
    omega

/-- `Append` that returns. -/
theorem append_length_le (h : b.WellFormed) (hn : data.length < sizeTCount)
    (hok : b.append data = .ok b') : b.vBuffer.length ≤ b'.vBuffer.length ∧
      b'.vBuffer.length ≤ max b.vBuffer.length (2 * (b.getReadableBytes + data.length)) := by
  obtain ⟨b₁, hshape, hlen, -⟩ := append_shape h hn hok
  rw [hlen]
  exact hshape.length_le h

end shape

end CBuffer

/-! ## Runs -/

/-- A call on a buffer. -/
inductive BufferCall
  /-- A call of a member function but `ReadFd`. -/
  | op (o : BufferOp)
  /-- `ReadFd`, where `readv` returns the result. -/
  | readFd (result : ReadvResult)
  deriving DecidableEq, Repr

namespace BufferCall

/-- The buffer after the call. -/
def run (b : CBuffer) : BufferCall → Except Fault CBuffer
  | op o => o.run b
  | readFd result => (b.readFd result).map fun r => r.1

/-- The call returns. -/
def Step (b : CBuffer) (a : BufferCall) (b' : CBuffer) : Prop := a.run b = .ok b'

/-- Appends, retrieves, prepends and reads, called as they may be. -/
def Legal (b : CBuffer) : BufferCall → Prop
  | op o => o.Legal b ∧ o.Transfers
  | readFd result => b.Offers result

/-- How many bytes the buffer has to hold after the call, if it may make room for them. -/
def demand (b : CBuffer) : BufferCall → ℕ
  | op (.append data) => b.getReadableBytes + data.length
  | op (.appendString sStr) => b.getReadableBytes + sStr.length
  | op (.appendVoid data) => b.getReadableBytes + data.length
  | readFd (.bytes data) => b.getReadableBytes + data.length
  | _ => 0

variable {b b' : CBuffer} {q : List Byte}

/-- The vector after a call of a member function but `ReadFd`. -/
theorem op_length_le (h : Agrees b q) {o : BufferOp} (hlegal : o.Legal b) (hop : o.Transfers)
    (hst : BufferOp.Step b o b') : b.vBuffer.length ≤ b'.vBuffer.length ∧
      b'.vBuffer.length ≤ max b.vBuffer.length (2 * (op o).demand b) := by
  have hwf := h.wellFormed
  cases o with
  | append data | appendString data | appendVoid data =>
      exact CBuffer.append_length_le hwf hlegal hst
  | ensureWriteableBytes nLen => exact absurd hop id
  | retrieve nLen =>
      obtain ⟨-, -, hst⟩ := bind_eq_ok_iff.mp hst
      cases Except.ok.inj hst
      exact ⟨le_rfl, le_max_left _ _⟩
  | retrieveUtil k =>
      rw [BufferOp.Step, BufferOp.run, CBuffer.retrieveUtil_peek_add hwf hlegal] at hst
      obtain ⟨-, -, hst⟩ := bind_eq_ok_iff.mp hst
      cases Except.ok.inj hst
      exact ⟨le_rfl, le_max_left _ _⟩
  | retrieveAll =>
      cases Except.ok.inj hst
      exact ⟨le_rfl, le_max_left _ _⟩
  | retrieveAsString =>
      rw [BufferOp.Step, BufferOp.run, CBuffer.retrieveAsString_eq hwf] at hst
      cases Except.ok.inj hst
      exact ⟨le_rfl, le_max_left _ _⟩
  | prepend data =>
      obtain ⟨-, -, hst⟩ := bind_eq_ok_iff.mp hst
      obtain ⟨v, hcopy, hst⟩ := bind_eq_ok_iff.mp hst
      cases Except.ok.inj hst
      unfold copyTo at hcopy
      split_ifs at hcopy with hin
      cases Except.ok.inj hcopy
      rw [length_overwrite hin]
      exact ⟨le_rfl, le_max_left _ _⟩
  | write data =>
      rw [(CBuffer.write_shape hwf hlegal hst).1]
      exact ⟨le_rfl, le_max_left _ _⟩

/-- **One call**: the buffer agrees with a queue again, and its vector is no shorter, and no longer
than before or twice the demand. -/
theorem step_length_le (h : Agrees b q) {a : BufferCall} (hlegal : a.Legal b) (hst : Step b a b') :
    (∃ q', Agrees b' q') ∧ b.vBuffer.length ≤ b'.vBuffer.length ∧
      b'.vBuffer.length ≤ max b.vBuffer.length (2 * a.demand b) := by
  have hwf := h.wellFormed
  cases a with
  | op o =>
      have hroom := hasRoom_of_transfers hwf hlegal.2 hlegal.1 hst
      exact ⟨⟨_, h.of_step hlegal.1 hroom hst⟩, op_length_le h hlegal.1 hlegal.2 hst⟩
  | readFd result =>
      cases result with
      | error errno =>
          cases Except.ok.inj hst
          exact ⟨⟨q, h⟩, le_rfl, le_max_left _ _⟩
      | bytes data =>
          obtain ⟨r, hok, hst⟩ := map_eq_ok_iff.mp hst
          have hroom : b.ReadRoom (.bytes data) := by
            by_contra hnot
            exact CBuffer.readFd_ne_ok_of_not_room hwf hlegal hnot r hok
          obtain ⟨b₁, hok', hwf', hcontent⟩ := CBuffer.readFd_of_room hwf hroom
          have hlen := CBuffer.readFd_length_le hwf hlegal hok
          obtain rfl := Except.ok.inj (hok'.symm.trans hok)
          subst hst
          exact ⟨⟨_, hwf', hcontent, h.cheapPrepend_le.trans hlen.1⟩, hlen⟩

/-- **The memory of a buffer is at most twice its demand.** In every run of appends, retrieves,
prepends and reads on a new buffer that all return: if no call makes the buffer hold more than `m`
bytes, the vector has at least its initial 1032 bytes, and at most these or `2 * m`, however much
has gone through the buffer. -/
theorem capacity_run {as : List BufferCall} {m : ℕ} (hrun : Run Step CBuffer.new as b)
    (hlegal : Along Step (fun b a => a.Legal b) CBuffer.new as)
    (hdemand : Along Step (fun b a => a.demand b ≤ m) CBuffer.new as) :
    cheapPrepend + initialSize ≤ b.vBuffer.length ∧
      b.vBuffer.length ≤ max (cheapPrepend + initialSize) (2 * m) := by
  have hnew : CBuffer.new.vBuffer.length = cheapPrepend + initialSize := List.length_replicate
  have hkeep : ∀ (b : CBuffer) a b',
      ((∃ q, Agrees b q) ∧ cheapPrepend + initialSize ≤ b.vBuffer.length ∧
        b.vBuffer.length ≤ max (cheapPrepend + initialSize) (2 * m)) →
      (a.Legal b ∧ a.demand b ≤ m) → Step b a b' →
      (∃ q, Agrees b' q) ∧ cheapPrepend + initialSize ≤ b'.vBuffer.length ∧
        b'.vBuffer.length ≤ max (cheapPrepend + initialSize) (2 * m) := by
    rintro b a b' ⟨⟨q, h⟩, hlow, hhigh⟩ ⟨hlegal, hdemand⟩ hst
    obtain ⟨hagree, hle, hbound⟩ := step_length_le h hlegal hst
    refine ⟨hagree, hlow.trans hle, hbound.trans (max_le hhigh ?_)⟩
    exact le_max_of_le_right (Nat.mul_le_mul_left 2 hdemand)
  refine (hrun.invariant_along hkeep (hlegal.and hdemand) ⟨⟨[], agrees_new⟩, ?_, ?_⟩).2
  · exact hnew.ge
  · exact hnew.le.trans (le_max_left _ _)

/-- The theorem on a read of 1033 bytes into a new buffer. -/
theorem capacity_run_1033 : ∃ b,
    Run Step CBuffer.new [readFd (.bytes (List.replicate 1033 7))] b ∧ b.vBuffer.length ≤ 2066 := by
  generalize hdata : List.replicate 1033 (7 : Byte) = data
  have hn : data.length = 1033 := by rw [← hdata, List.length_replicate]
  obtain ⟨hread, hwriteable, -⟩ := CBuffer.new_asserts
  have hlen : CBuffer.new.vBuffer.length = 1032 := List.length_replicate
  have hreader : CBuffer.new.readerIndex = 8 := rfl
  have hroom : CBuffer.new.ReadRoom (.bytes data) := by
    refine Or.inr (Or.inl ⟨?_, ?_⟩)
    · simp [hwriteable, hn, hreader, initialSize]
    · simp [hwriteable, hn, hlen, vectorMaxSize, initialSize]
  have hlegal : Legal CBuffer.new (readFd (.bytes data)) := by
    simp [Legal, CBuffer.Offers, hwriteable, hn, extraBufSize, initialSize]
  have hdemand : demand CBuffer.new (readFd (.bytes data)) ≤ 1033 := by
    simp [demand, hread, hn]
  obtain ⟨b, hok, -⟩ := CBuffer.readFd_of_room CBuffer.wellFormed_new hroom
  have hst : Step CBuffer.new (readFd (.bytes data)) b := by
    rw [Step, run, hok]
    rfl
  have hbound := capacity_run (Run.single hst)
    (along_cons_iff.mpr ⟨hlegal, fun _ _ => along_nil⟩)
    (along_cons_iff.mpr ⟨hdemand, fun _ _ => along_nil⟩)
  exact ⟨b, Run.single hst, hbound.2.trans (by decide)⟩

end BufferCall

end Neconet
