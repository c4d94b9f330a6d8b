import Neconet.Net.BufferAlike

/-!
# What `Shrink` keeps

`Shrink` copies the readable bytes into a new vector, behind a cheap prepend, and swaps the vector
in. It leaves the two indices alone, which describe the old vector; and where they happen to
describe the new one, too, the capacity decides which later calls have room.

* `BufferOp.Transfers`: the appends, retrieves and prepends; `agrees_of_reachable`: a run of them
  keeps a buffer in agreement with a queue.
* `CBuffer.KeepsBytes`: the readable bytes are the same behind `Shrink`, and `nReserve` are
  writable; `keepsBytes_iff`: when this is so.
* `BehavesAs`: all later calls do on one buffer what they do on another.
* `CBuffer.ShrinksExactly`: what a caller expects of `Shrink`: the capacity changes and nothing
  else.
* `shrinksExactly_iff`: in every reachable state `Shrink` does what is expected exactly if the
  reader index is at the cheap prepend and the capacity is what it was.
-/

namespace Neconet

open Slice Transition

/-! ## Runs of calls on one buffer -/

namespace BufferOp

/-- A call on the buffer that returns. -/
def Step (b : CBuffer) (op : BufferOp) (b' : CBuffer) : Prop := op.run b = .ok b'

/-- The appends, retrieves and prepends: every call but `EnsureWriteableBytes`, which moves no
byte. -/
def Transfers : BufferOp → Prop
  | ensureWriteableBytes _ => False
  | _ => True

end BufferOp

section runs

variable {b b' : CBuffer} {q : List Byte} {ops : List BufferOp}

/-- A condition on a call that returns, and behind it. -/
theorem along_cons_of_step {ok : CBuffer → BufferOp → Prop} {op : BufferOp}
    (hst : BufferOp.Step b op b') (hop : ok b op) (hops : Along BufferOp.Step ok b' ops) :
    Along BufferOp.Step ok b (op :: ops) := by
  refine along_cons_iff.mpr ⟨hop, ?_⟩
  intro t ht
  obtain rfl := Except.ok.inj (hst.symm.trans ht)
  exact hops

/-- An append that returns had room. -/
theorem hasRoom_of_transfers (h : b.WellFormed) {op : BufferOp} (hop : op.Transfers)
    (hlegal : op.Legal b) (hok : op.run b = .ok b') : op.HasRoom b := by
  by_contra hroom
  cases op with
  | append data | appendString data | appendVoid data =>
      exact CBuffer.append_ne_ok_of_not_roomFor h hlegal hroom b' hok
  | ensureWriteableBytes nLen => exact hop
  | retrieve | retrieveUtil | retrieveAll | retrieveAsString | prepend | write =>
      exact hroom trivial

/-- A call with room that returns keeps the agreement with the queue. -/
theorem Agrees.of_step (h : Agrees b q) {op : BufferOp} (hlegal : op.Legal b)
    (hroom : op.HasRoom b) (hst : BufferOp.Step b op b') : Agrees b' (op.apply q) := by
  obtain ⟨t, ht, hagree, -⟩ := run_refines h hlegal hroom
  obtain rfl := Except.ok.inj (hst.symm.trans ht)
  exact hagree

/-- Every buffer that appends, retrieves and prepends lead to agrees with a queue. -/
theorem agrees_of_reachable (hrun : Run BufferOp.Step CBuffer.new ops b)
    (hok : Along BufferOp.Step (fun b op => op.Legal b ∧ op.Transfers) CBuffer.new ops) :
    ∃ q, Agrees b q := by
  refine hrun.invariant_along (I := fun b => ∃ q, Agrees b q) ?_ hok ⟨[], agrees_new⟩
  rintro s op t ⟨q, h⟩ ⟨hlegal, hop⟩ hst
  have hroom := hasRoom_of_transfers h.wellFormed hop hlegal hst
  exact ⟨op.apply q, h.of_step hlegal hroom hst⟩

end runs

/-! ## What `Shrink` does -/

/-- What a caller finds in `b'` behind `Shrink(nReserve)` on `b`: the readable bytes are the same,
the indices are in order and inside the vector, and exactly `nReserve` bytes are writable. -/
structure Shrunk (b : CBuffer) (nReserve : ℕ) (b' : CBuffer) : Prop where
  /-- Reader index ≤ writer index ≤ size of the vector. -/
  wellFormed : b'.WellFormed
  /-- What `Peek` shows. -/
  content_eq : b'.content = b.content
  /-- What `GetReadableBytes` returns. -/
  getReadableBytes_eq : b'.getReadableBytes = b.getReadableBytes
  /-- What `RetrieveAsString` returns. -/
  retrieveAsString_eq : b'.retrieveAsString.map Prod.fst = b.retrieveAsString.map Prod.fst
  /-- The reserve. -/
  getWriteableBytes_eq : b'.getWriteableBytes = nReserve

/-- `Shrink` returns, and keeps the readable bytes. -/
def CBuffer.KeepsBytes (b : CBuffer) (nReserve : ℕ) : Prop :=
  ∃ b', b.shrink nReserve = .ok b' ∧ Shrunk b nReserve b'

/-- Every sequence of later calls does on `b'` what it does on `b`: it ends with the same fault, or
it returns and leaves the same readable bytes. -/
def BehavesAs (b b' : CBuffer) : Prop :=
  ∀ requests, BufferRequest.outcome b' requests = BufferRequest.outcome b requests

/-- What a caller expects of `Shrink`: it returns, keeps the readable bytes, and the later calls do
what they would have done. -/
def CBuffer.ShrinksExactly (b : CBuffer) (nReserve : ℕ) : Prop :=
  ∃ b', b.shrink nReserve = .ok b' ∧ Shrunk b nReserve b' ∧ BehavesAs b b'

section shrink

variable {b b' : CBuffer} {q : List Byte} {nReserve : ℕ}

/-- `Shrink` leaves both indices alone; the new vector has the cheap prepend, the readable bytes and
the reserve, counted by `size_t`. -/
theorem shrink_eq_ok (hok : b.shrink nReserve = .ok b') :
    b'.readerIndex = b.readerIndex ∧ b'.writerIndex = b.writerIndex ∧
      b'.vBuffer.length = (cheapPrepend + b.getReadableBytes + nReserve) % sizeTCount := by
  obtain ⟨v, hv, hok⟩ := bind_eq_ok_iff.mp hok
  obtain ⟨block, -, hok⟩ := bind_eq_ok_iff.mp hok
  obtain ⟨w, hw, hok⟩ := bind_eq_ok_iff.mp hok
  obtain rfl := Except.ok.inj hok
  refine ⟨rfl, rfl, ?_⟩
  unfold vectorResize at hv
  split at hv
  · unfold copyTo at hw
    split at hw
    · rename_i hin
      obtain rfl := Except.ok.inj hv
      obtain rfl := Except.ok.inj hw
      change (overwrite _ cheapPrepend block).length = _
      rw [length_overwrite hin, length_resize]
      exact Nat.mod_add_mod _ _ _
    · simp at hw
  · simp at hv

/-- The vector that `Shrink` swaps in. -/
def CBuffer.shrunk (b : CBuffer) (nReserve : ℕ) : List Byte :=
  overwrite (resize [] (cheapPrepend + b.getReadableBytes + nReserve) 0) cheapPrepend b.content

/-- The new vector holds the cheap prepend, the readable bytes and the reserve. -/
theorem length_shrunk (h : b.WellFormed) (nReserve : ℕ) :
    (b.shrunk nReserve).length = cheapPrepend + b.getReadableBytes + nReserve := by
  have hin : cheapPrepend + b.content.length ≤
      (resize ([] : List Byte) (cheapPrepend + b.getReadableBytes + nReserve) 0).length := by
    rw [length_resize, h.length_content]
    omega
  unfold CBuffer.shrunk
  rw [length_overwrite hin, length_resize]

/-- The readable bytes are behind the cheap prepend of the new vector. -/
theorem window_shrunk (b : CBuffer) (nReserve : ℕ) :
    window (b.shrunk nReserve) cheapPrepend (cheapPrepend + b.content.length) = b.content := by
  refine window_overwrite_self ?_
  rw [length_resize]
  omega

/-- `Shrink` to a size that a vector can have. -/
theorem shrink_of_size_le (h : b.WellFormed)
    (hsize : cheapPrepend + b.getReadableBytes + nReserve ≤ vectorMaxSize) :
    b.shrink nReserve = .ok { b with vBuffer := b.shrunk nReserve } := by
  have hmax : vectorMaxSize < sizeTCount := by decide
  have hlt := h.size_lt
  have hr := h.reader_le
  have hw := h.writer_le
  have hread := h.getReadableBytes_eq
  have hinner : sizeAdd cheapPrepend b.getReadableBytes = cheapPrepend + b.getReadableBytes :=
    sizeAdd_of_lt (by omega)
  have houter : sizeAdd (cheapPrepend + b.getReadableBytes) nReserve =
      cheapPrepend + b.getReadableBytes + nReserve := sizeAdd_of_lt (by omega)
  have hend : sizeAdd b.peek b.getReadableBytes = b.writerIndex := by
    unfold CBuffer.peek
    rw [hread, sizeAdd_of_lt (by omega)]
    omega
  have hblock : readFrom b.vBuffer b.peek b.writerIndex = .ok b.content := if_pos ⟨hr, hw⟩
  have hcopy : ∀ v : List Byte, v.length = cheapPrepend + b.getReadableBytes + nReserve →
      copyTo v cheapPrepend b.content = .ok (overwrite v cheapPrepend b.content) := by
    intro v hv
    refine if_pos ?_
    rw [h.length_content, hv]
    omega
  unfold CBuffer.shrink
  rw [hinner, houter, hend, hblock]
  simp only [vectorResize, hsize, if_true, ok_bind, hcopy _ (length_resize _ _ _)]
  rfl

/-- With the reader index at the cheap prepend the old indices describe the new vector. -/
theorem shrink_shrunk (h : b.WellFormed) (hreader : b.readerIndex = cheapPrepend)
    (hsize : cheapPrepend + b.getReadableBytes + nReserve ≤ vectorMaxSize) :
    Shrunk b nReserve { b with vBuffer := b.shrunk nReserve } := by
  have hread := h.getReadableBytes_eq
  have hle := h.reader_le
  have hlen := length_shrunk h nReserve
  have hwf' : CBuffer.WellFormed { b with vBuffer := b.shrunk nReserve } := by
    refine ⟨hle, ?_, ?_⟩
    · change b.writerIndex ≤ (b.shrunk nReserve).length
      omega
    · change (b.shrunk nReserve).length ≤ vectorMaxSize
      omega
  have hcontent : CBuffer.content { b with vBuffer := b.shrunk nReserve } = b.content := by
    have hend : b.writerIndex = cheapPrepend + b.content.length := by
      rw [h.length_content]
      omega
    change window (b.shrunk nReserve) b.readerIndex b.writerIndex = b.content
    rw [hreader, hend, window_shrunk]
  refine ⟨hwf', hcontent, rfl, ?_, ?_⟩
  · rw [CBuffer.retrieveAsString_eq h, CBuffer.retrieveAsString_eq hwf']
    exact congrArg Except.ok hcontent
  · rw [hwf'.getWriteableBytes_eq]
    change (b.shrunk nReserve).length - b.writerIndex = nReserve
    omega

/-- `nReserve` bytes are writable in a well-formed buffer only if the reader index was at the cheap
prepend. -/
theorem reader_of_writeable (h : b.WellFormed) (hok : b.shrink nReserve = .ok b')
    (h' : b'.WellFormed) (hwrite : b'.getWriteableBytes = nReserve) :
    b.readerIndex = cheapPrepend ∧
      cheapPrepend + b.getReadableBytes + nReserve ≤ vectorMaxSize := by
  obtain ⟨-, hw, hlen⟩ := shrink_eq_ok hok
  have hread := h.getReadableBytes_eq
  have hle := h.reader_le
  have hw' := h'.writer_le
  have hsize := h'.size_le
  rw [h'.getWriteableBytes_eq, hw] at hwrite
  have hcheap : cheapPrepend = 8 := rfl
  have hmax : vectorMaxSize = 2 ^ 63 - 1 := rfl
  have hcount : sizeTCount = 2 ^ 64 := rfl
  rw [Nat.mod_eq_of_lt (by omega)] at hlen
  omega

/-- **`Shrink` keeps the readable bytes exactly while the reader index is at the cheap prepend**, if
the new vector is not longer than a vector can be. -/
theorem keepsBytes_iff (h : b.WellFormed) (nReserve : ℕ) :
    b.KeepsBytes nReserve ↔ b.readerIndex = cheapPrepend ∧
      cheapPrepend + b.getReadableBytes + nReserve ≤ vectorMaxSize := by
  constructor
  · rintro ⟨b', hshrink, h'⟩
    exact reader_of_writeable h hshrink h'.wellFormed h'.getWriteableBytes_eq
  · rintro ⟨hreader, hsize⟩
    exact ⟨_, shrink_of_size_le h hsize, shrink_shrunk h hreader hsize⟩

/-! ## Later calls -/

/-- An `Append` returns exactly if it has room. -/
theorem append_returns_iff (h : b.WellFormed) {data : List Byte} (hlen : data.length < sizeTCount) :
    (∃ t, b.append data = .ok t) ↔ b.RoomFor data.length := by
  constructor
  · rintro ⟨t, hok⟩
    by_contra hroom
    exact CBuffer.append_ne_ok_of_not_roomFor h hlen hroom t hok
  · intro hroom
    obtain ⟨t, hok, -⟩ := CBuffer.append_yields h hroom
    exact ⟨t, hok⟩

/-- A caller sees whether an `Append` returns. -/
theorem outcome_append_iff {data : List Byte} :
    (∃ r, BufferRequest.outcome b [.op (.append data)] = .ok r) ↔ ∃ t, b.append data = .ok t := by
  have hone : BufferRequest.runAll b [.op (.append data)] = b.append data := bind_pure _
  unfold BufferRequest.outcome
  rw [hone]
  constructor
  · rintro ⟨r, hr⟩
    obtain ⟨t, ht, -⟩ := map_eq_ok_iff.mp hr
    exact ⟨t, ht⟩
  · rintro ⟨t, ht⟩
    exact ⟨_, map_eq_ok_iff.mpr ⟨t, ht, rfl⟩⟩

/-- A buffer that behaves as another has room for the same lengths. -/
theorem BehavesAs.roomFor_iff (hbehaves : BehavesAs b b') (h : b.WellFormed) (h' : b'.WellFormed)
    {n : ℕ} (hn : n < sizeTCount) : b.RoomFor n ↔ b'.RoomFor n := by
  obtain ⟨data, rfl⟩ : ∃ data : List Byte, data.length = n :=
    ⟨List.replicate n 0, List.length_replicate⟩
  have hsame := hbehaves [.op (.append data)]
  rw [← append_returns_iff h hn, ← append_returns_iff h' hn, ← outcome_append_iff,
    ← outcome_append_iff, hsame]

/-- With the reader index at the cheap prepend, no room in front makes up for what is missing
behind. -/
theorem roomFor_iff_of_reader (hreader : b.readerIndex = cheapPrepend) {n : ℕ} :
    b.RoomFor n ↔ n ≤ b.getWriteableBytes ∨
      (b.getWriteableBytes + cheapPrepend < n ∧ b.writerIndex + n ≤ vectorMaxSize) := by
  have hprep : b.getPrependableBytes = cheapPrepend := hreader
  unfold CBuffer.RoomFor
  rw [hprep, hreader]
  simp

/-- Buffers that behave the same and have their reader index at the cheap prepend have the same
capacity: an `Append` of one byte more than fits into one of them tells them apart. -/
theorem BehavesAs.getWriteableBytes_eq (hbehaves : BehavesAs b b') (h : b.WellFormed)
    (h' : b'.WellFormed) (hreader : b.readerIndex = cheapPrepend)
    (hreader' : b'.readerIndex = cheapPrepend) : b'.getWriteableBytes = b.getWriteableBytes := by
  have hbound : ∀ {c : CBuffer}, c.WellFormed → c.getWriteableBytes + 1 < sizeTCount := by
    intro c hc
    have hsize := hc.size_le
    rw [hc.getWriteableBytes_eq]
    simp only [vectorMaxSize, sizeTCount] at hsize ⊢
    omega
  have hmore := (hbehaves.roomFor_iff h h' (hbound h)).not
  have hmore' := (hbehaves.roomFor_iff h h' (hbound h')).not
  rw [roomFor_iff_of_reader hreader, roomFor_iff_of_reader hreader'] at hmore hmore'
  have hcheap : cheapPrepend = 8 := rfl
  omega

/-- **`Shrink` changes the capacity only exactly if it does not change it.** In every state that
appends, retrieves and prepends lead to, `Shrink(nReserve)` leaves the readable bytes, puts the
indices in order and inside the vector, leaves `nReserve` writable bytes and later calls as they
were, if and only if the reader index is at the cheap prepend (since the last reset of the indices,
as many bytes have been prepended as retrieved) and `nReserve` bytes were writable before. -/
theorem shrinksExactly_iff {ops : List BufferOp} (hrun : Run BufferOp.Step CBuffer.new ops b)
    (hok : Along BufferOp.Step (fun b op => op.Legal b ∧ op.Transfers) CBuffer.new ops)
    (nReserve : ℕ) :
    b.ShrinksExactly nReserve ↔
      b.readerIndex = cheapPrepend ∧ nReserve = b.getWriteableBytes := by
  obtain ⟨q, hagrees⟩ := agrees_of_reachable hrun hok
  have h := hagrees.wellFormed
  constructor
  · rintro ⟨b', hshrink, hshrunk, hbehaves⟩
    obtain ⟨hreader, -⟩ := (keepsBytes_iff h nReserve).mp ⟨b', hshrink, hshrunk⟩
    obtain ⟨hsame, -, -⟩ := shrink_eq_ok hshrink
    refine ⟨hreader, ?_⟩
    rw [← hshrunk.getWriteableBytes_eq]
    exact hbehaves.getWriteableBytes_eq h hshrunk.wellFormed hreader (hsame.trans hreader)
  · rintro ⟨hreader, rfl⟩
    have hlength : cheapPrepend + b.getReadableBytes + b.getWriteableBytes = b.vBuffer.length := by
      rw [h.getReadableBytes_eq, h.getWriteableBytes_eq, ← hreader]
      have hle := h.reader_le
      have hw := h.writer_le
      omega
    have hsize : cheapPrepend + b.getReadableBytes + b.getWriteableBytes ≤ vectorMaxSize :=
      hlength.le.trans h.size_le
    have hshrunk := shrink_shrunk h hreader hsize
    have halike : Alike b { b with vBuffer := b.shrunk b.getWriteableBytes } := by
      refine ⟨rfl, rfl, ?_, hshrunk.content_eq.symm, h.reader_le, ?_, h.size_le⟩
      · exact ((length_shrunk h _).trans hlength).symm
      · exact h.writer_le.trans_lt h.size_lt
    refine ⟨_, shrink_of_size_le h hsize, hshrunk, fun requests => ?_⟩
    exact (outcome_eq_of_alike halike requests).symm

end shrink

/-! ## Three bytes -/

/-- A new buffer after an append of three bytes. -/
def appended : CBuffer := ⟨overwrite CBuffer.new.vBuffer 8 [1, 2, 3], 8, 11⟩

/-- The buffer when the first of them has been retrieved. -/
def retrieved : CBuffer := { appended with readerIndex := 9 }

/-- The append returns. -/
theorem step_append : BufferOp.Step CBuffer.new (.append [1, 2, 3]) appended := by
  change CBuffer.new.append [1, 2, 3] = .ok appended
  decide +kernel

/-- The retrieve returns. -/
theorem step_retrieve : BufferOp.Step appended (.retrieve 1) retrieved := rfl

/-- Both calls are legal. -/
theorem along_retrieved {ops : List BufferOp}
    (hops : Along BufferOp.Step (fun b op => op.Legal b ∧ op.Transfers) retrieved ops) :
    Along BufferOp.Step (fun b op => op.Legal b ∧ op.Transfers) CBuffer.new
      (.append [1, 2, 3] :: .retrieve 1 :: ops) := by
  have hlen : 3 < sizeTCount := by decide
  have hread : 1 ≤ appended.getReadableBytes := by decide
  exact along_cons_of_step step_append ⟨hlen, trivial⟩
    (along_cons_of_step step_retrieve ⟨hread, trivial⟩ hops)

/-- **Three bytes appended, one retrieved, one put in front**: the reader index is back at the cheap
prepend, 1021 bytes are writable, and `Shrink(1021)` does what is expected. -/
theorem shrinksExactly_prepended :
    ∃ b, Run BufferOp.Step CBuffer.new [.append [1, 2, 3], .retrieve 1, .prepend [9]] b ∧
      b.ShrinksExactly 1021 := by
  have hprepend : BufferOp.Step retrieved (.prepend [9])
      { appended with vBuffer := overwrite appended.vBuffer 8 [9] } := by
    change retrieved.prepend [9] = _
    decide +kernel
  have hfits : 1 ≤ retrieved.getPrependableBytes := by decide
  have hrun := Run.cons step_append (Run.cons step_retrieve (Run.single hprepend))
  have hok := along_retrieved (along_cons_of_step hprepend ⟨hfits, trivial⟩ along_nil)
  exact ⟨_, hrun, (shrinksExactly_iff hrun hok 1021).mpr ⟨rfl, by decide +kernel⟩⟩

/-- **Three bytes appended, one retrieved, and `Shrink(0)`**: the two readable bytes are moved to
the indices 8 and 9 of a vector of 10 bytes, and the indices stay 9 and 11. -/
theorem not_shrinksExactly_retrieved :
    ∃ ops b, Run BufferOp.Step CBuffer.new ops b ∧
      Along BufferOp.Step (fun b op => op.Legal b ∧ op.Transfers) CBuffer.new ops ∧
      ¬ b.ShrinksExactly 0 := by
  refine ⟨[.append [1, 2, 3], .retrieve 1], retrieved, ?_, along_retrieved along_nil, ?_⟩
  · exact Run.cons step_append (Run.single step_retrieve)
  · rintro ⟨b', hshrink, hshrunk, -⟩
    obtain ⟨-, hw, hlen⟩ := shrink_eq_ok hshrink
    have hle := hshrunk.wellFormed.writer_le
    rw [hw, hlen] at hle
    exact absurd hle (by decide)

/-- On a new buffer `Shrink(0)` keeps the readable bytes, of which there are none. But an `Append`
of one byte, for which the buffer had room, does not return any more: with one byte the eight bytes
in front seem to suffice. -/
example :
    BufferRequest.outcome CBuffer.new [.shrink 0] = .ok ([], 0) ∧
      BufferRequest.outcome CBuffer.new [.shrink 0, .op (.append [1])] = .error .assertion ∧
      BufferRequest.outcome CBuffer.new [.op (.append [1])] = .ok ([1], 1) := by
  decide +kernel

end Neconet
