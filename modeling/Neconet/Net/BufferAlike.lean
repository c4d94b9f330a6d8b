import Neconet.Net.BufferQueue
import Neconet.Net.BufferRead

/-!
# Buffers that no call tells apart

Two buffers with the same indices, the same readable bytes and vectors of the same length differ in
bytes that nobody reads at most. Every call on them ends with the same fault, or returns the same
and leaves two such buffers; so does every sequence of calls.

* `CBuffer.shrink`: the member function `Shrink`, the last of the calls.
* `Alike`: the relation; `ensureWriteableBytes_alike`, `append_alike`, ...: the member functions
  keep it.
* `BufferRequest`: a call, `ReadFd` and `Shrink` included; `outcome`: what is seen of a sequence of
  them.
* `outcome_eq_of_alike`: it is the same for two buffers that are alike.
-/

namespace Neconet

open Slice

/-! ## The calls -/

namespace CBuffer

/-- Source: `net/CBuffer.cpp`, `CBuffer::Shrink` -/
def shrink (b : CBuffer) (nReserve : ℕ) : Except Fault CBuffer := do
  let vBuf ← vectorResize [] (sizeAdd (sizeAdd cheapPrepend b.getReadableBytes) nReserve)
  let block ← readFrom b.vBuffer b.peek (sizeAdd b.peek b.getReadableBytes)
  let vBuf ← copyTo vBuf cheapPrepend block
  -- only the vectors are swapped: both indices stay
  return { b with vBuffer := vBuf }

end CBuffer

/-- A call on a buffer. -/
inductive BufferRequest
  /-- One that moves bytes between the buffer and the caller, or makes room. -/
  | op (op : BufferOp)
  /-- `ReadFd`, where `readv` returns `result`. -/
  | readFd (result : ReadvResult)
  /-- `Shrink`. -/
  | shrink (nReserve : ℕ)
  deriving DecidableEq, Repr

namespace BufferRequest

/-- The buffer after the call. -/
def run (b : CBuffer) : BufferRequest → Except Fault CBuffer
  | .op bufferOp => bufferOp.run b
  | .readFd result => do
      let (b, _) ← b.readFd result
      return b
  | .shrink nReserve => b.shrink nReserve

/-- The buffer after the calls, one after the other. -/
def runAll (b : CBuffer) (requests : List BufferRequest) : Except Fault CBuffer :=
  requests.foldlM run b

/-- What is seen of the calls: the fault that ends them, or the readable bytes behind them (as
`Peek` and `RetrieveAsString` show them) and their number (as `GetReadableBytes` returns it). -/
def outcome (b : CBuffer) (requests : List BufferRequest) : Except Fault (List Byte × ℕ) :=
  (runAll b requests).map fun t => (t.content, t.getReadableBytes)

end BufferRequest

/-! ## Alike buffers -/

/-- The buffers have the same indices, the same readable bytes, and vectors of the same length. -/
structure Alike (b b' : CBuffer) : Prop where
  /-- The reader indices. -/
  reader_eq : b.readerIndex = b'.readerIndex
  /-- The writer indices. -/
  writer_eq : b.writerIndex = b'.writerIndex
  /-- The lengths of the vectors. -/
  length_eq : b.vBuffer.length = b'.vBuffer.length
  /-- The readable bytes. -/
  content_eq : b.content = b'.content
  /-- The indices are in order. -/
  reader_le : b.readerIndex ≤ b.writerIndex
  /-- The writer index is a `size_t`; it may be outside the vector. -/
  writer_lt : b.writerIndex < sizeTCount
  /-- The vectors are not longer than a vector can be. -/
  size_le : b.vBuffer.length ≤ vectorMaxSize

section alike

variable {b b' : CBuffer}

/-- Alike buffers differ in the vector alone. -/
theorem Alike.exists_vBuffer (h : Alike b b') : ∃ v, b' = { b with vBuffer := v } ∧
    b.vBuffer.length = v.length ∧ b.content = window v b.readerIndex b.writerIndex := by
  refine ⟨b'.vBuffer, ?_, h.length_eq, ?_⟩
  · rw [h.reader_eq, h.writer_eq]
  · rw [h.content_eq, h.reader_eq, h.writer_eq]
    rfl

/-- Alike buffers have as many readable bytes. -/
theorem Alike.getReadableBytes_eq (h : Alike b b') : b.getReadableBytes = b'.getReadableBytes := by
  unfold CBuffer.getReadableBytes
  rw [h.reader_eq, h.writer_eq]

/-- The number of readable bytes is counted without wrap-around. -/
theorem Alike.getReadableBytes_eq_sub (h : Alike b b') :
    b.getReadableBytes = b.writerIndex - b.readerIndex :=
  sizeSub_of_le h.reader_le h.writer_lt

/-- Alike buffers have as many writable bytes. -/
theorem Alike.getWriteableBytes_eq (h : Alike b b') :
    b.getWriteableBytes = b'.getWriteableBytes := by
  unfold CBuffer.getWriteableBytes
  rw [h.length_eq, h.writer_eq]

/-- The cheap prepend is inside the range of `size_t`, and so is every length of a vector. -/
theorem size_bounds : cheapPrepend < sizeTCount ∧ vectorMaxSize < sizeTCount := by decide

/-- `RetrieveAll`. -/
theorem retrieveAll_alike (h : Alike b b') : Alike b.retrieveAll b'.retrieveAll where
  reader_eq := rfl
  writer_eq := rfl
  length_eq := h.length_eq
  content_eq := (window_self _ _).trans (window_self _ _).symm
  reader_le := le_rfl
  writer_lt := size_bounds.1
  size_le := h.size_le

/-- `Retrieve`. -/
theorem retrieve_alike (h : Alike b b') (nLen : ℕ) :
    SameOutcome Alike (b.retrieve nLen) (b'.retrieve nLen) := by
  obtain ⟨v, rfl, hlen, hcontent⟩ := h.exists_vBuffer
  refine SameOutcome.bind_left _ fun _ hcheck => .ok ?_
  have hn : nLen ≤ b.writerIndex - b.readerIndex := by
    rw [← h.getReadableBytes_eq_sub]
    exact check_eq_ok_iff.mp hcheck
  have hle := h.reader_le
  have hlt := h.writer_lt
  have hadd : sizeAdd b.readerIndex nLen = b.readerIndex + nLen := sizeAdd_of_lt (by omega)
  refine ⟨rfl, rfl, hlen, ?_, ?_, hlt, h.size_le⟩
  · change window b.vBuffer (sizeAdd b.readerIndex nLen) b.writerIndex =
      window v (sizeAdd b.readerIndex nLen) b.writerIndex
    rw [hadd, ← drop_window, ← drop_window, ← hcontent]
    rfl
  · change sizeAdd b.readerIndex nLen ≤ b.writerIndex
    omega

/-- A block that is read out of two vectors. -/
theorem readFrom_alike (h : Alike b b') :
    readFrom b.vBuffer b.readerIndex b.writerIndex =
      readFrom b'.vBuffer b'.readerIndex b'.writerIndex := by
  obtain ⟨v, rfl, hlen, hcontent⟩ := h.exists_vBuffer
  unfold readFrom
  rw [hlen]
  split_ifs
  · exact congrArg Except.ok hcontent
  · rfl

/-- `Peek() + GetReadableBytes()`. -/
theorem Alike.peek_add (h : Alike b b') : sizeAdd b.peek b.getReadableBytes = b.writerIndex := by
  have hle := h.reader_le
  have hlt := h.writer_lt
  unfold CBuffer.peek
  rw [h.getReadableBytes_eq_sub, sizeAdd_of_lt (by omega)]
  omega

/-- Two vectors of one length are resized. -/
theorem vectorResize_same (l l' : List Byte) (n : ℕ) :
    SameOutcome (fun w w' => n ≤ vectorMaxSize ∧ w = resize l n 0 ∧ w' = resize l' n 0)
      (vectorResize l n) (vectorResize l' n) := by
  refine SameOutcome.ite Iff.rfl ?_ ?_
  · intro hmax
    exact .ok ⟨hmax, rfl, rfl⟩
  · intro _
    exact .fault _

/-- The same block is copied into two vectors of one length. -/
theorem copyTo_same {l l' : List Byte} (hlen : l.length = l'.length) (pos : ℕ) (data : List Byte) :
    SameOutcome (fun w w' => pos + data.length ≤ l.length ∧ w = overwrite l pos data ∧
      w' = overwrite l' pos data) (copyTo l pos data) (copyTo l' pos data) := by
  refine SameOutcome.ite (by rw [hlen]) ?_ ?_
  · intro hin
    exact .ok ⟨hin, rfl, rfl⟩
  · intro _
    exact .fault _

/-- A block copied to one place of both vectors leaves them alike, under new indices as well, where
they then hold the same readable bytes. -/
theorem Alike.overwritten (h : Alike b b') {pos reader writer : ℕ} {data : List Byte}
    (hin : pos + data.length ≤ b.vBuffer.length) (hle : reader ≤ writer) (hlt : writer < sizeTCount)
    (hcontent : window (overwrite b.vBuffer pos data) reader writer =
      window (overwrite b'.vBuffer pos data) reader writer) :
    Alike ⟨overwrite b.vBuffer pos data, reader, writer⟩
      ⟨overwrite b'.vBuffer pos data, reader, writer⟩ where
  reader_eq := rfl
  writer_eq := rfl
  length_eq := by
    change (overwrite _ _ _).length = (overwrite _ _ _).length
    rw [length_overwrite hin, length_overwrite (h.length_eq ▸ hin), h.length_eq]
  content_eq := hcontent
  reader_le := hle
  writer_lt := hlt
  size_le := (length_overwrite hin).le.trans h.size_le

/-- `__MakeSpace`. -/
theorem makeSpace_alike (h : Alike b b') (nLen : ℕ) :
    SameOutcome Alike (b.makeSpace nLen) (b'.makeSpace nLen) := by
  have hread := readFrom_alike h
  have hwriteable := h.getWriteableBytes_eq
  obtain ⟨v, rfl, hlen, hcontent⟩ := h.exists_vBuffer
  refine SameOutcome.ite (by rw [hwriteable]; rfl) (fun _ => ?_) (fun _ => ?_)
  · refine (vectorResize_same _ _ _).bind ?_
    rintro w w' ⟨hmax, rfl, rfl⟩
    refine .ok ⟨rfl, rfl, ?_, window_resize_congr hcontent _ _, h.reader_le, h.writer_lt, ?_⟩
    · exact (length_resize _ _ _).trans (length_resize _ _ _).symm
    · exact (length_resize _ _ _).le.trans hmax
  · refine SameOutcome.bind_left _ fun _ hbehind => ?_
    dsimp only
    rw [← hread]
    refine SameOutcome.bind_left _ fun block hblock => (copyTo_same hlen _ _).bind ?_
    rintro w w' ⟨hin, rfl, rfl⟩
    refine SameOutcome.bind_left _ fun _ _ => .ok ?_
    have hbehind' : cheapPrepend < b.readerIndex := check_eq_ok_iff.mp hbehind
    have hle := h.reader_le
    have hlt := h.writer_lt
    have hreadable := h.getReadableBytes_eq_sub
    have hblockLength : block.length = b.getReadableBytes := by
      unfold readFrom at hblock
      split_ifs at hblock with hbounds
      rw [← Except.ok.inj hblock, length_window hbounds.2, hreadable]
    have hend : sizeAdd cheapPrepend b.getReadableBytes = cheapPrepend + block.length := by
      rw [hblockLength]
      exact sizeAdd_of_lt (by omega)
    have hpos : cheapPrepend ≤ b.vBuffer.length := (Nat.le_add_right _ _).trans hin
    refine h.overwritten hin ?_ ?_ ?_
    · rw [hend]
      exact Nat.le_add_right _ _
    · rw [hend]
      omega
    · rw [hend, window_overwrite_self hpos, window_overwrite_self (hlen ▸ hpos)]

/-- `EnsureWriteableBytes`. -/
theorem ensureWriteableBytes_alike (h : Alike b b') (nLen : ℕ) :
    SameOutcome Alike (b.ensureWriteableBytes nLen) (b'.ensureWriteableBytes nLen) := by
  have hwriteable : b.getWriteableBytes < nLen ↔ b'.getWriteableBytes < nLen := by
    rw [h.getWriteableBytes_eq]
  have hcheck : ∀ t t', Alike t t' → SameOutcome Alike
      (check (t.getWriteableBytes ≥ nLen) >>= fun _ => .ok t)
      (check (t'.getWriteableBytes ≥ nLen) >>= fun _ => .ok t') := by
    intro t t' ht
    rw [ht.getWriteableBytes_eq]
    exact SameOutcome.bind_left _ fun _ _ => .ok ht
  exact SameOutcome.ite hwriteable (fun _ => (makeSpace_alike h nLen).bind hcheck)
    fun _ => (SameOutcome.ok h).bind hcheck

/-- Bytes written behind the content, and counted to it. -/
theorem overwrite_alike (h : Alike b b') (data : List Byte)
    (hin : b.writerIndex + data.length ≤ b.vBuffer.length) :
    Alike ⟨overwrite b.vBuffer b.writerIndex data, b.readerIndex, b.writerIndex + data.length⟩
      ⟨overwrite b'.vBuffer b.writerIndex data, b.readerIndex, b.writerIndex + data.length⟩ := by
  obtain ⟨v, rfl, hlen, hcontent⟩ := h.exists_vBuffer
  have hle := h.reader_le
  have hmax := h.size_le.trans_lt size_bounds.2
  have hwriter : b.writerIndex ≤ b.vBuffer.length := (Nat.le_add_right _ _).trans hin
  refine h.overwritten hin (hle.trans (Nat.le_add_right _ _)) (hin.trans_lt hmax) ?_
  rw [window_overwrite_append hle hwriter, window_overwrite_append hle (hlen ▸ hwriter),
    ← hcontent]
  rfl

/-- A position in a vector is counted without wrap-around. -/
theorem Alike.sizeAdd_of_le (h : Alike b b') {n : ℕ} (hin : b.writerIndex + n ≤ b.vBuffer.length) :
    sizeAdd b.writerIndex n = b.writerIndex + n :=
  sizeAdd_of_lt ((hin.trans h.size_le).trans_lt size_bounds.2)

/-- Bytes written at `BeginWrite()` and declared by `HasWritten`. -/
theorem write_alike (h : Alike b b') (data : List Byte) :
    SameOutcome Alike (b.writeAtBeginWrite data >>= fun b => .ok (b.hasWritten data.length))
      (b'.writeAtBeginWrite data >>= fun b => .ok (b.hasWritten data.length)) := by
  have hwritten := overwrite_alike h data
  obtain ⟨v, rfl, hlen, -⟩ := h.exists_vBuffer
  unfold CBuffer.writeAtBeginWrite
  rw [bind_assoc, bind_assoc]
  refine (copyTo_same hlen b.beginWrite data).bind ?_
  rintro w w' ⟨hin, rfl, rfl⟩
  have hend := h.sizeAdd_of_le hin
  refine .ok ?_
  unfold CBuffer.hasWritten
  rw [hend]
  exact hwritten hin

/-- `Append`. -/
theorem append_alike (h : Alike b b') (data : List Byte) :
    SameOutcome Alike (b.append data) (b'.append data) :=
  (ensureWriteableBytes_alike h _).bind fun _ _ ht => write_alike ht data

/-- `Prepend`. -/
theorem prepend_alike (h : Alike b b') (data : List Byte) :
    SameOutcome Alike (b.prepend data) (b'.prepend data) := by
  obtain ⟨v, rfl, hlen, hcontent⟩ := h.exists_vBuffer
  refine SameOutcome.bind_left _ fun _ hcheck => ?_
  have hd : data.length ≤ b.readerIndex := check_eq_ok_iff.mp hcheck
  have hle := h.reader_le
  have hlt := h.writer_lt
  have hsub : sizeSub b.readerIndex data.length = b.readerIndex - data.length :=
    sizeSub_of_le hd (by omega)
  refine (copyTo_same hlen _ data).bind ?_
  rintro w w' ⟨hin, rfl, rfl⟩
  refine .ok ?_
  dsimp only at hin ⊢
  rw [hsub] at hin ⊢
  refine h.overwritten hin ?_ hlt ?_
  · exact (Nat.sub_le _ _).trans hle
  · have hfit : b.readerIndex - data.length + data.length ≤ b.writerIndex := by omega
    have hpos : b.readerIndex - data.length ≤ b.vBuffer.length := (Nat.le_add_right _ _).trans hin
    rw [window_overwrite_prepend hfit hpos, window_overwrite_prepend hfit (hlen ▸ hpos),
      Nat.sub_add_cancel hd, ← hcontent]
    rfl

/-- `RetrieveUtil`. -/
theorem retrieveUtil_alike (h : Alike b b') (cEnd : ℕ) :
    SameOutcome Alike (b.retrieveUtil cEnd) (b'.retrieveUtil cEnd) := by
  have hreader := h.reader_eq
  have hwriter := h.writer_eq
  unfold CBuffer.retrieveUtil CBuffer.peek CBuffer.beginWrite
  rw [hreader, hwriter]
  exact SameOutcome.bind_left _ fun _ _ => SameOutcome.bind_left _ fun _ _ => retrieve_alike h _

/-- `RetrieveAsString` returns the same bytes. -/
theorem retrieveAsString_alike (h : Alike b b') :
    SameOutcome (fun r r' => r.1 = r'.1 ∧ Alike r.2 r'.2)
      b.retrieveAsString b'.retrieveAsString := by
  have hread := readFrom_alike h
  have hpeek := h.peek_add
  have hall := retrieveAll_alike h
  obtain ⟨v, rfl, -, -⟩ := h.exists_vBuffer
  change SameOutcome _ (readFrom b.vBuffer b.readerIndex (sizeAdd b.peek b.getReadableBytes) >>= _)
    (readFrom v b.readerIndex (sizeAdd b.peek b.getReadableBytes) >>= _)
  rw [hpeek, hread]
  exact SameOutcome.bind_left _ fun _ _ => .ok ⟨rfl, hall⟩

/-- `ReadFd` returns the same. -/
theorem readFd_alike (h : Alike b b') (result : ReadvResult) :
    SameOutcome (fun r r' => r.2 = r'.2 ∧ Alike r.1 r'.1) (b.readFd result) (b'.readFd result) := by
  cases result with
  | error errno => exact .ok ⟨rfl, h⟩
  | bytes data =>
      have hwriteable := h.getWriteableBytes_eq
      have hwritten := overwrite_alike h
      obtain ⟨v, rfl, hlen, -⟩ := h.exists_vBuffer
      unfold CBuffer.readFd CBuffer.writeAtBeginWrite
      simp only [bind_assoc, ← hwriteable]
      refine (copyTo_same hlen b.beginWrite _).bind ?_
      rintro w w' ⟨hin, rfl, rfl⟩
      refine SameOutcome.ite Iff.rfl (fun hfits => .ok ⟨rfl, ?_⟩) fun hmore => ?_
      · rw [List.take_of_length_le hfits] at hin ⊢
        have hend := h.sizeAdd_of_le hin
        change Alike ⟨_, _, sizeAdd b.writerIndex data.length⟩
          ⟨_, _, sizeAdd b.writerIndex data.length⟩
        rw [hend]
        exact hwritten data hin
      · -- the bytes that fit fill the vector up to its end
        have hfull : b.writerIndex + (data.take b.getWriteableBytes).length = b.vBuffer.length := by
          have hsize := h.size_le.trans_lt size_bounds.2
          have hin' : b.writerIndex ≤ b.vBuffer.length := (Nat.le_add_right _ _).trans hin
          have hrest : b.getWriteableBytes = b.vBuffer.length - b.writerIndex :=
            sizeSub_of_le hin' hsize
          rw [List.length_take, Nat.min_eq_left (not_le.mp hmore).le]
          omega
        have hfilled := hwritten _ hin
        rw [hfull] at hfilled
        refine SameOutcome.bind (R := Alike) (append_alike ?_ _) fun t t' ht => .ok ⟨rfl, ht⟩
        simp only [length_overwrite hin, length_overwrite (hlen ▸ hin), ← hlen]
        exact hfilled

/-- `Shrink` swaps in the same vector. -/
theorem shrink_alike (h : Alike b b') (nReserve : ℕ) :
    SameOutcome Alike (b.shrink nReserve) (b'.shrink nReserve) := by
  have hread := readFrom_alike h
  have hpeek := h.peek_add
  obtain ⟨v, rfl, -, -⟩ := h.exists_vBuffer
  change SameOutcome _ (vectorResize _ _ >>= fun vBuf =>
      readFrom b.vBuffer b.readerIndex (sizeAdd b.peek b.getReadableBytes) >>= _)
    (vectorResize _ _ >>= fun vBuf =>
      readFrom v b.readerIndex (sizeAdd b.peek b.getReadableBytes) >>= _)
  rw [hpeek, hread]
  refine (vectorResize_same _ _ _).bind ?_
  rintro _ vBuf ⟨hmax, rfl, rfl⟩
  refine SameOutcome.bind_left _ fun block _ => (copyTo_same rfl _ block).bind ?_
  rintro _ w ⟨hin, rfl, rfl⟩
  refine .ok ⟨rfl, rfl, rfl, rfl, h.reader_le, h.writer_lt, ?_⟩
  exact (length_overwrite hin).le.trans ((length_resize _ _ _).le.trans hmax)

/-! ## Sequences of calls -/

/-- One of the calls that `BufferOp` has. -/
theorem op_alike (h : Alike b b') (bufferOp : BufferOp) :
    SameOutcome Alike (bufferOp.run b) (bufferOp.run b') := by
  cases bufferOp with
  | append data => exact append_alike h data
  | appendString sStr => exact append_alike h sStr
  | appendVoid data => exact append_alike h data
  | retrieve nLen => exact retrieve_alike h nLen
  | retrieveUtil k =>
      have hpeek : b.peek + k = b'.peek + k := congrArg (· + k) h.reader_eq
      rw [BufferOp.run, BufferOp.run, hpeek]
      exact retrieveUtil_alike h _
  | retrieveAll => exact .ok (retrieveAll_alike h)
  | retrieveAsString => exact (retrieveAsString_alike h).bind fun r r' hr => .ok hr.2
  | prepend data => exact prepend_alike h data
  | ensureWriteableBytes nLen => exact ensureWriteableBytes_alike h nLen
  | write data => exact write_alike h data

/-- **One call on alike buffers**: the same fault, or alike buffers again. -/
theorem request_alike (h : Alike b b') (request : BufferRequest) :
    SameOutcome Alike (request.run b) (request.run b') := by
  cases request with
  | op bufferOp => exact op_alike h bufferOp
  | readFd result => exact (readFd_alike h result).bind fun r r' hr => .ok hr.2
  | shrink nReserve => exact shrink_alike h nReserve

/-- Any number of calls. -/
theorem runAll_alike (h : Alike b b') (requests : List BufferRequest) :
    SameOutcome Alike (BufferRequest.runAll b requests) (BufferRequest.runAll b' requests) := by
  induction requests generalizing b b' with
  | nil => exact .ok h
  | cons request requests ih =>
      unfold BufferRequest.runAll
      rw [List.foldlM_cons, List.foldlM_cons]
      exact (request_alike h request).bind fun t t' ht => ih ht

/-- **Alike buffers cannot be told apart**: every sequence of calls has the same outcome on both. -/
theorem outcome_eq_of_alike (h : Alike b b') (requests : List BufferRequest) :
    BufferRequest.outcome b requests = BufferRequest.outcome b' requests := by
  refine (runAll_alike h requests).map_eq fun t t' ht => ?_
  rw [ht.content_eq, ht.getReadableBytes_eq]

end alike

end Neconet
