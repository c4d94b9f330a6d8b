import Neconet.Net.Buffer
import Neconet.Lib.Transition

/-!
# `CBuffer` as a byte queue

What a `CBuffer` is for: a queue of bytes that also takes bytes back in front. The operations on
the queue are defined here without indices and without a vector, and runs of calls on any number
of buffers are compared with them.

* `BufferOp`: the calls a caller can make on one buffer; `BufferOp.run` makes the call,
  `BufferOp.apply` says what it means for the queue.
* `PoolOp`: a call on one buffer of a pool, or `Swap` of two of them.
* `run_refines`, `Pool.step_refines`: one call on buffers that agree with their queues, if it
  `HasRoom`.
* `refinesQueue_iff`: a run of calls refines the queues exactly if every `Append` and every
  `EnsureWriteableBytes` in it has room in the sense of `CBuffer.RoomFor`. The calls without room
  are those where `__MakeSpace` decides to slide although the cheap prepend is not part of the room
  (its test compares the writable and prependable bytes with `nLen`, not with
  `nLen + sm_nCheapPrepend`), and those that ask for more than a vector can hold.
-/

namespace Neconet

open Transition

/-! ## Calls on one buffer -/

/-- The calls a caller can make on a buffer. `retrieveUtil k` passes the pointer `Peek() + k`,
`write data` writes `data` at `BeginWrite()` and declares it with `HasWritten`. -/
inductive BufferOp
  | append (data : List Byte)
  | appendString (sStr : List Byte)
  | appendVoid (data : List Byte)
  | retrieve (nLen : ℕ)
  | retrieveUtil (k : ℕ)
  | retrieveAll
  | retrieveAsString
  | prepend (data : List Byte)
  | ensureWriteableBytes (nLen : ℕ)
  | write (data : List Byte)
  deriving DecidableEq, Repr

namespace BufferOp

/-- The buffer after the call. -/
def run (b : CBuffer) : BufferOp → Except Fault CBuffer
  | append data => b.append data
  | appendString sStr => b.appendString sStr
  | appendVoid data => b.appendVoid data
  | retrieve nLen => b.retrieve nLen
  | retrieveUtil k => b.retrieveUtil (b.peek + k)
  | retrieveAll => .ok b.retrieveAll
  | retrieveAsString => do
      let (_, b) ← b.retrieveAsString
      return b
  | prepend data => b.prepend data
  | ensureWriteableBytes nLen => b.ensureWriteableBytes nLen
  | write data => do
      let b ← b.writeAtBeginWrite data
      return b.hasWritten data.length

/-- The queue after the call. -/
def apply (q : List Byte) : BufferOp → List Byte
  | append data => q ++ data
  | appendString sStr => q ++ sStr
  | appendVoid data => q ++ data
  | retrieve nLen => q.drop nLen
  | retrieveUtil k => q.drop k
  | retrieveAll => []
  | retrieveAsString => []
  | prepend data => data ++ q
  | ensureWriteableBytes _ => q
  | write data => q ++ data

/-- What the called function asserts about its argument, or its type says: lengths are `size_t`,
no more is retrieved than is readable, no more prepended than fits in front, and no more declared
as written than is writable. -/
def Legal (b : CBuffer) : BufferOp → Prop
  | append data => data.length < sizeTCount
  | appendString sStr => sStr.length < sizeTCount
  | appendVoid data => data.length < sizeTCount
  | retrieve nLen => nLen ≤ b.getReadableBytes
  | retrieveUtil k => k ≤ b.getReadableBytes
  | retrieveAll => True
  | retrieveAsString => True
  | prepend data => data.length ≤ b.getPrependableBytes
  | ensureWriteableBytes nLen => nLen < sizeTCount
  | write data => data.length ≤ b.getWriteableBytes

/-- The calls that ask for room get it. -/
def HasRoom (b : CBuffer) : BufferOp → Prop
  | append data => b.RoomFor data.length
  | appendString sStr => b.RoomFor sStr.length
  | appendVoid data => b.RoomFor data.length
  | ensureWriteableBytes nLen => b.RoomFor nLen
  | _ => True

/-- What the call promises beyond the content: `EnsureWriteableBytes(n)` leaves at least `n`
writable bytes. -/
def Ensures (b' : CBuffer) : BufferOp → Prop
  | ensureWriteableBytes nLen => nLen ≤ b'.getWriteableBytes
  | _ => True

end BufferOp

/-! ## One call refines the queue operation -/

/-- A buffer agrees with a queue: it is well formed, has the queue's bytes as its content, and its
vector can hold the cheap prepend. -/
structure Agrees (b : CBuffer) (q : List Byte) : Prop where
  /-- The indices are in order. -/
  wellFormed : b.WellFormed
  /-- The readable bytes are the queue. -/
  content_eq : b.content = q
  /-- `RetrieveAll` has a place to reset the indices to. -/
  cheapPrepend_le : cheapPrepend ≤ b.vBuffer.length

/-- The constructor builds an empty queue. -/
theorem agrees_new : Agrees CBuffer.new [] where
  wellFormed := CBuffer.wellFormed_new
  content_eq := CBuffer.content_new
  cheapPrepend_le := CBuffer.wellFormed_new.writer_le

section one

variable {b : CBuffer} {q : List Byte}

/-- A call that yields a content keeps the agreement. -/
theorem Agrees.of_yields (h : Agrees b q) {r : Except Fault CBuffer} {q' : List Byte}
    (hr : CBuffer.Yields b r q') : ∃ b', r = .ok b' ∧ Agrees b' q' := by
  obtain ⟨b', hok, hwf, hcontent, hlen⟩ := hr
  exact ⟨b', hok, hwf, hcontent, h.cheapPrepend_le.trans hlen⟩

/-- `Append` with room adds at the back. -/
theorem Agrees.append (h : Agrees b q) {data : List Byte} (hroom : b.RoomFor data.length) :
    ∃ b', b.append data = .ok b' ∧ Agrees b' (q ++ data) := by
  rw [← h.content_eq]
  exact h.of_yields (CBuffer.append_yields h.wellFormed hroom)

/-- **One call refines the queue operation**: a legal call with room returns, the buffer it leaves
agrees with the queue after the operation, and it has kept its promise. -/
theorem run_refines (h : Agrees b q) {op : BufferOp} (hlegal : op.Legal b) (hroom : op.HasRoom b) :
    ∃ b', op.run b = .ok b' ∧ Agrees b' (op.apply q) ∧ op.Ensures b' := by
  have hwf := h.wellFormed
  obtain rfl := h.content_eq
  cases op with
  | append data | appendString data | appendVoid data =>
      obtain ⟨b', hok, h'⟩ := h.append hroom
      exact ⟨b', hok, h', trivial⟩
  | retrieve nLen =>
      obtain ⟨b', hok, h'⟩ := h.of_yields (CBuffer.retrieve_yields hwf hlegal)
      exact ⟨b', hok, h', trivial⟩
  | retrieveUtil k =>
      obtain ⟨b', hok, h'⟩ := h.of_yields (CBuffer.retrieve_yields hwf hlegal)
      exact ⟨b', (CBuffer.retrieveUtil_peek_add hwf hlegal).trans hok, h', trivial⟩
  | retrieveAll =>
      obtain ⟨b', hok, h'⟩ := h.of_yields (CBuffer.retrieveAll_yields hwf h.cheapPrepend_le)
      exact ⟨b', hok, h', trivial⟩
  | retrieveAsString =>
      obtain ⟨b', hok, h'⟩ := h.of_yields (CBuffer.retrieveAll_yields hwf h.cheapPrepend_le)
      refine ⟨b', ?_, h', trivial⟩
      simp only [BufferOp.run, CBuffer.retrieveAsString_eq hwf, ok_bind]
      exact hok
  | prepend data =>
      obtain ⟨b', hok, h'⟩ := h.of_yields (CBuffer.prepend_yields hwf hlegal)
      exact ⟨b', hok, h', trivial⟩
  | ensureWriteableBytes nLen =>
      obtain ⟨b', hok, hwf', hcontent, hlen, hfit⟩ :=
        CBuffer.ensureWriteableBytes_of_roomFor hwf hroom
      exact ⟨b', hok, ⟨hwf', hcontent, h.cheapPrepend_le.trans hlen⟩, hfit⟩
  | write data =>
      obtain ⟨b', hok, h'⟩ := h.of_yields (CBuffer.write_yields hwf hlegal)
      exact ⟨b', hok, h', trivial⟩

/-- A call without room does not return, or leaves a buffer that is not well formed. -/
theorem not_wellFormed_of_not_hasRoom (h : b.WellFormed) {op : BufferOp} (hlegal : op.Legal b)
    (hroom : ¬ op.HasRoom b) {b' : CBuffer} (hok : op.run b = .ok b') : ¬ b'.WellFormed := by
  cases op with
  | append data | appendString data | appendVoid data =>
      exact absurd hok (CBuffer.append_ne_ok_of_not_roomFor h hlegal hroom b')
  | ensureWriteableBytes nLen =>
      intro hwf
      have hlt := CBuffer.not_wellFormed_of_not_roomFor h hlegal hroom hok
      exact absurd hwf.writer_le (Nat.not_le.mpr hlt)
  | retrieve | retrieveUtil | retrieveAll | retrieveAsString | prepend | write =>
      exact absurd trivial hroom

end one

/-! ## Runs on a pool of buffers -/

/-- A call on the buffer `i` of a pool, or `Swap` of the buffers `i` and `j`. -/
inductive PoolOp (ι : Type)
  | on (i : ι) (op : BufferOp)
  | swap (i j : ι)
  deriving DecidableEq, Repr

section pool

variable {ι : Type} [DecidableEq ι]

namespace PoolOp

/-- The pool after the call. -/
def run (s : ι → CBuffer) : PoolOp ι → Except Fault (ι → CBuffer)
  | on i op => do
      let b ← op.run (s i)
      return Function.update s i b
  | swap i j =>
      let (b, rhs) := (s i).swap (s j)
      .ok (Function.update (Function.update s i b) j rhs)

/-- The queues after the call. -/
def apply (q : ι → List Byte) : PoolOp ι → ι → List Byte
  | on i op => Function.update q i (op.apply (q i))
  | swap i j => Function.update (Function.update q i (q j)) j (q i)

/-- The call on one buffer is legal; a `Swap` always is. -/
def Legal (s : ι → CBuffer) : PoolOp ι → Prop
  | on i op => op.Legal (s i)
  | swap _ _ => True

/-- The call on one buffer has room; a `Swap` needs none. -/
def HasRoom (s : ι → CBuffer) : PoolOp ι → Prop
  | on i op => op.HasRoom (s i)
  | swap _ _ => True

/-- The call on one buffer keeps its promise. -/
def Ensures (s' : ι → CBuffer) : PoolOp ι → Prop
  | on i op => op.Ensures (s' i)
  | swap _ _ => True

end PoolOp

/-- A pool of buffers beside the queues they stand for. -/
structure Pool (ι : Type) where
  /-- The buffers. -/
  buffers : ι → CBuffer
  /-- The queues. -/
  queues : ι → List Byte

/-- Newly constructed buffers beside empty queues. -/
def Pool.new : Pool ι where
  buffers := fun _ => CBuffer.new
  queues := fun _ => []

/-- A call on the buffers beside the operation on the queues. -/
def Pool.Step (s : Pool ι) (op : PoolOp ι) (t : Pool ι) : Prop :=
  op.run s.buffers = .ok t.buffers ∧ t.queues = op.apply s.queues

/-- All buffers agree with their queues. -/
def Pool.Agree (s : Pool ι) : Prop := ∀ i, Agrees (s.buffers i) (s.queues i)

/-- What every call must have done: the buffers are well formed, their contents are the queues, and
the call has kept its promise. -/
def Pool.Good (_ : Pool ι) (op : PoolOp ι) (t : Pool ι) : Prop :=
  (∀ i, (t.buffers i).WellFormed ∧ (t.buffers i).content = t.queues i) ∧ op.Ensures t.buffers

/-- A run of calls refines the queues: each call in turn returns (no assertion fails and no byte is
copied outside a vector), and is good. -/
def RefinesQueue (ops : List (PoolOp ι)) : Prop :=
  ∀ done op rest, ops = done ++ op :: rest →
    ∃ s t, Run Pool.Step Pool.new done s ∧ Pool.Step s op t ∧ Pool.Good s op t

/-- The calls are deterministic. -/
theorem Pool.step_unique (s : Pool ι) (op : PoolOp ι) (t t' : Pool ι) (h : Pool.Step s op t)
    (h' : Pool.Step s op t') : t = t' := by
  obtain ⟨hb, hq⟩ := h
  obtain ⟨hb', hq'⟩ := h'
  rw [hb, Except.ok.injEq] at hb'
  cases t
  cases t'
  simp_all

/-- One call on a pool that agrees with its queues, if it has room. -/
theorem Pool.step_refines (s : Pool ι) (op : PoolOp ι) (h : s.Agree) (hlegal : op.Legal s.buffers)
    (hroom : op.HasRoom s.buffers) : ∃ t, Pool.Step s op t ∧ t.Agree ∧ Pool.Good s op t := by
  suffices hstep : ∃ t, Pool.Step s op t ∧ t.Agree ∧ op.Ensures t.buffers by
    obtain ⟨t, hst, ht, hens⟩ := hstep
    exact ⟨t, hst, ht, fun i => ⟨(ht i).wellFormed, (ht i).content_eq⟩, hens⟩
  cases op with
  | on i op =>
      obtain ⟨b', hok, hagree, hens⟩ := run_refines (h i) hlegal hroom
      refine ⟨⟨Function.update s.buffers i b', PoolOp.apply s.queues (.on i op)⟩,
        ⟨?_, rfl⟩, fun k => ?_, ?_⟩
      · simp only [PoolOp.run, hok, ok_bind]
        rfl
      · by_cases hk : k = i
        · subst hk
          simpa [PoolOp.apply] using hagree
        · simpa [PoolOp.apply, Function.update_of_ne hk] using h k
      · simpa [PoolOp.Ensures] using hens
  | swap i j =>
      refine ⟨⟨Function.update (Function.update s.buffers i (s.buffers j)) j (s.buffers i),
        PoolOp.apply s.queues (.swap i j)⟩, ⟨rfl, rfl⟩, fun k => ?_, trivial⟩
      by_cases hj : k = j
      · subst hj
        simpa [PoolOp.apply] using h i
      · by_cases hi : k = i
        · subst hi
          simpa [PoolOp.apply, Function.update_of_ne hj] using h j
        · simpa [PoolOp.apply, Function.update_of_ne hj, Function.update_of_ne hi] using h k

/-- A call without room is not good. -/
theorem Pool.not_good_of_not_hasRoom (s : Pool ι) (op : PoolOp ι) (t : Pool ι) (h : s.Agree)
    (hlegal : op.Legal s.buffers) (hroom : ¬ op.HasRoom s.buffers) (hst : Pool.Step s op t) :
    ¬ Pool.Good s op t := by
  intro hgood
  cases op with
  | on i op =>
      obtain ⟨b', hok, hb⟩ := bind_eq_ok_iff.mp hst.1
      have hi : t.buffers i = b' := by
        rw [← Except.ok.inj hb, Function.update_self]
      have hwf := (hgood.1 i).1
      rw [hi] at hwf
      exact not_wellFormed_of_not_hasRoom (h i).wellFormed hlegal hroom hok hwf
  | swap i j => exact hroom trivial

/-- **`CBuffer` refines a byte queue exactly along the runs in which every call has room.** For a
run of legal calls on any number of buffers: after every call the indices are in order, the
contents are the queues, `EnsureWriteableBytes` has kept its promise, and no assertion failed and
no byte was copied outside a vector, if and only if `RoomFor` held at every `Append` and
`EnsureWriteableBytes`. -/
theorem refinesQueue_iff (ops : List (PoolOp ι))
    (hlegal : Along Pool.Step (fun s op => op.Legal s.buffers) Pool.new ops) :
    RefinesQueue ops ↔ Along Pool.Step (fun s op => op.HasRoom s.buffers) Pool.new ops :=
  (along_iff_good Pool.step_unique Pool.step_refines Pool.not_good_of_not_hasRoom hlegal
    fun _ => agrees_new).symm

/-- The theorem on a run that grows a new buffer and gives two bytes back. -/
theorem refinesQueue_grow_retrieve :
    RefinesQueue [PoolOp.on () (.append (List.replicate 1033 7)), .on () (.retrieve 2)] := by
  have hlen : (List.replicate 1033 (7 : Byte)).length = 1033 := List.length_replicate
  generalize List.replicate 1033 (7 : Byte) = data at hlen ⊢
  obtain ⟨-, hw, hp⟩ := CBuffer.new_asserts
  have hlegal : (PoolOp.on () (.append data)).Legal Pool.new.buffers := by
    change data.length < sizeTCount
    rw [hlen]
    decide
  have hroom : (PoolOp.on () (.append data)).HasRoom Pool.new.buffers := by
    change CBuffer.new.RoomFor data.length
    rw [CBuffer.RoomFor, hlen, hw, hp]
    decide
  have hretrieve : ∀ t : Pool Unit, Pool.Step Pool.new (.on () (.append data)) t →
      (PoolOp.on () (.retrieve 2)).Legal t.buffers := by
    intro t ht
    obtain ⟨t', ht', hagree, -⟩ := Pool.step_refines Pool.new _ (fun _ => agrees_new) hlegal hroom
    rw [Pool.step_unique _ _ _ _ ht ht']
    change 2 ≤ (t'.buffers ()).getReadableBytes
    rw [← (hagree ()).wellFormed.length_content, (hagree ()).content_eq, ht'.2]
    simp [PoolOp.apply, BufferOp.apply, Pool.new, hlen]
  exact (refinesQueue_iff _ (along_cons_iff.mpr
    ⟨hlegal, fun t ht => along_cons_iff.mpr ⟨hretrieve t ht, fun _ _ => along_nil⟩⟩)).mpr
    (along_cons_iff.mpr ⟨hroom, fun _ _ => along_cons_iff.mpr ⟨trivial, fun _ _ => along_nil⟩⟩)

/-- **One byte more than fits, on a new buffer**: `Append` of 1025 bytes is a legal call, but
`__MakeSpace` counts the 8 bytes of the cheap prepend as room, decides to slide, and its assertion
`sm_nCheapPrepend < m_nReaderIndex` fails. -/
theorem not_refinesQueue_append_1025 :
    ∃ ops : List (PoolOp Unit), Along Pool.Step (fun s op => op.Legal s.buffers) Pool.new ops ∧
      ¬ RefinesQueue ops := by
  refine ⟨[.on () (.append (List.replicate 1025 0))], ?_, fun h => ?_⟩
  · rw [along_cons_iff]
    refine ⟨?_, fun _ _ => along_nil⟩
    change (List.replicate 1025 (0 : Byte)).length < sizeTCount
    rw [List.length_replicate]
    decide
  · obtain ⟨s, t, hs, hst, -⟩ := h [] _ [] rfl
    rw [run_nil_iff] at hs
    subst hs
    obtain ⟨b', hok, -⟩ := bind_eq_ok_iff.mp hst.1
    refine CBuffer.append_ne_ok_of_not_roomFor CBuffer.wellFormed_new ?_ ?_ b' hok
    · rw [List.length_replicate]
      decide
    · obtain ⟨-, hw, hp⟩ := CBuffer.new_asserts
      rw [List.length_replicate, CBuffer.RoomFor, hw, hp]
      decide

end pool

end Neconet
