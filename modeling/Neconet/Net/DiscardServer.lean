import Neconet.Net.ConnectionBuffers

/-!
# The server of `main.cpp`

Its message callback prints how many bytes there are and takes them all. So the input buffer of a
connection is empty before each read, and what decides whether the next read can be stored is the
largest one so far: a read that is longer by more than the cheap prepend makes the vector grow to
exactly its own length (if a vector can have that length), and one that is longer by at most the
cheap prepend fails an assertion.

* `onMessage`, `readEvent`, `readEvents`: the callback, and the read events of one connection.
* `Stored`: the sequences of reads that can be stored.
* `readEvents_iff`: the server survives exactly these, and prints every read as it came.
-/

namespace Neconet

/-! ## The callback -/

/-- What `onMessage` prints: a count, and the text of a string up to its first zero byte. -/
structure Printed where
  /-- `buf->GetReadableBytes()`. -/
  count : ℕ
  /-- `buf->RetrieveAsString().c_str()`. -/
  text : List Byte
  deriving DecidableEq, Repr

/-- The text that `printf` takes from `sStr.c_str()`. -/
def cStr (sStr : List Byte) : List Byte := sStr.takeWhile (· ≠ 0)

/-- Source: `main.cpp`, `onMessage` -/
def onMessage (buf : CBuffer) : Except Fault (CBuffer × Printed) := do
  let count := buf.getReadableBytes
  let (sStr, buf) ← buf.retrieveAsString
  return (buf, { count := count, text := cStr sStr })

namespace BufferedConnection

/-- A read event of the connection, for which `readv` returns `result`.
Source: `net/CTcpConnection.cpp`, `CTcpConnection::__HandleRead`, with `main.cpp`, `onMessage` -/
def readEvent (c : BufferedConnection) (result : ReadvResult) :
    Except Fault (BufferedConnection × List Printed) := do
  let (c, callback) ← c.handleRead result
  if callback = some .message then
    let (inputBuffer, printed) ← onMessage c.inputBuffer
    return ({ c with inputBuffer := inputBuffer }, [printed])
  else return (c, [])

/-- Read events, one after the other. -/
def readEvents (c : BufferedConnection) :
    List ReadvResult → Except Fault (BufferedConnection × List Printed)
  | [] => return (c, [])
  | result :: results => do
      let (c, printed) ← c.readEvent result
      let (c, rest) ← c.readEvents results
      return (c, printed ++ rest)

/-! ## One read -/

/-- The input buffer between two messages: empty, with `nCap` bytes behind the cheap prepend. -/
structure Emptied (c : BufferedConnection) (nCap : ℕ) : Prop where
  /-- The indices are in order. -/
  wellFormed : c.inputBuffer.WellFormed
  /-- `m_szReaderIndex`, set by `RetrieveAll`. -/
  reader_eq : c.inputBuffer.readerIndex = cheapPrepend
  /-- `m_szWriterIndex`, set by `RetrieveAll`. -/
  writer_eq : c.inputBuffer.writerIndex = cheapPrepend
  /-- The length of the vector. -/
  length_eq : c.inputBuffer.vBuffer.length = cheapPrepend + nCap

/-- A read of so many bytes into an empty buffer with `nCap` bytes can be stored. -/
def Storable (nCap n : ℕ) : Prop :=
  n ≤ nCap ∨ nCap + cheapPrepend < n ∧ cheapPrepend + n ≤ vectorMaxSize

instance : DecidableRel Storable := fun nCap n => by
  unfold Storable
  infer_instance

section reads

variable {c : BufferedConnection} {nCap : ℕ} {data : List Byte}

/-- The free bytes of an emptied buffer. -/
theorem Emptied.getWriteableBytes_eq (h : c.Emptied nCap) :
    c.inputBuffer.getWriteableBytes = nCap := by
  rw [h.wellFormed.getWriteableBytes_eq, h.length_eq, h.writer_eq, Nat.add_sub_cancel_left]

/-- An emptied buffer has no content. -/
theorem Emptied.content_eq (h : c.Emptied nCap) : c.inputBuffer.content = [] := by
  apply List.length_eq_zero_iff.mp
  rw [h.wellFormed.length_content, h.wellFormed.getReadableBytes_eq, h.reader_eq, h.writer_eq,
    Nat.sub_self]

/-- Room for a read, in an emptied buffer. -/
theorem Emptied.readRoom_iff (h : c.Emptied nCap) :
    c.inputBuffer.ReadRoom (.bytes data) ↔ Storable nCap data.length := by
  unfold CBuffer.ReadRoom Storable
  rw [h.getWriteableBytes_eq, h.reader_eq, h.length_eq]
  simp only [cheapPrepend]
  omega

/-- The length of the vector behind a read into an emptied buffer. -/
theorem Emptied.length_readFd (h : c.Emptied nCap) (hoffers : c.inputBuffer.Offers (.bytes data))
    {r : CBuffer × ℕ × Option ℤ} (hok : c.inputBuffer.readFd (.bytes data) = .ok r) :
    r.1.vBuffer.length = cheapPrepend + max nCap data.length := by
  have hwriteable := h.getWriteableBytes_eq
  have hlength := h.length_eq
  rcases CBuffer.readFd_shape h.wellFormed hoffers hok with
    ⟨hfits, hlen, -⟩ | ⟨hmore, b₁, hshape, hlen, -⟩
  · omega
  · obtain ⟨-, -, hfull, hfilled⟩ := CBuffer.filled_spec h.wellFormed hmore
    have hreader : (c.inputBuffer.filled data).readerIndex = cheapPrepend := h.reader_eq
    have hwriter : (c.inputBuffer.filled data).writerIndex = cheapPrepend + nCap := hlength
    cases hshape with
    | fits hn hlen' hreader' hwriter' => omega
    | grows hn hlen' hreader' hwriter' => omega
    | slides hn hbehind hlen' hreader' hwriter' => omega

/-- **A read that can be stored** is printed, and leaves an empty buffer with room for as much. -/
theorem Emptied.readEvent (h : c.Emptied nCap) (hoffers : data.length ≤ nCap + extraBufSize)
    (hdata : data ≠ []) (hstorable : Storable nCap data.length) :
    ∃ c', c.readEvent (.bytes data) = .ok (c', [⟨data.length, cStr data⟩]) ∧
      c'.Emptied (max nCap data.length) := by
  have hoffers' : c.inputBuffer.Offers (.bytes data) := by
    rw [CBuffer.Offers, h.getWriteableBytes_eq]
    exact hoffers
  have hroom := h.readRoom_iff.mpr hstorable
  obtain ⟨b, hok, hwf, hcontent⟩ := CBuffer.readFd_of_room h.wellFormed hroom
  rw [h.content_eq, List.nil_append] at hcontent
  have hlen := h.length_readFd hoffers' hok
  have hpos : 0 < data.length := List.length_pos_iff.mpr hdata
  have hread : c.handleRead (.bytes data) = .ok ({ c with inputBuffer := b }, some .message) :=
    ConnectionOver.handleRead_of_pos ops (CBuffer.ops_readFd h.wellFormed hroom hok)
      (by omega)
  have hall : cheapPrepend ≤ b.vBuffer.length := by
    rw [hlen]
    exact Nat.le_add_right _ _
  obtain ⟨b', hall', hwf', -, -⟩ := CBuffer.retrieveAll_yields hwf hall
  cases Except.ok.inj hall'
  refine ⟨{ c with inputBuffer := b.retrieveAll }, ?_, hwf', rfl, rfl, hlen⟩
  have hprinted : onMessage b = .ok (b.retrieveAll, ⟨data.length, cStr data⟩) := by
    rw [onMessage, CBuffer.retrieveAsString_eq hwf, ← hcontent, hwf.length_content]
    rfl
  rw [BufferedConnection.readEvent, hread, ok_bind]
  dsimp only
  rw [if_pos rfl, hprinted]
  rfl

/-- A read that cannot be stored ends the program. -/
theorem Emptied.readEvent_ne_ok (h : c.Emptied nCap) (hoffers : data.length ≤ nCap + extraBufSize)
    (hnot : ¬ Storable nCap data.length) : ∀ r, c.readEvent (.bytes data) ≠ .ok r := by
  intro r hok
  obtain ⟨p, hread, -⟩ := bind_eq_ok_iff.mp hok
  obtain ⟨b, n, hops, -⟩ := ConnectionOver.handleRead_ok hread
  obtain ⟨q, hfd, -⟩ := bind_eq_ok_iff.mp hops
  have hoffers' : c.inputBuffer.Offers (.bytes data) := by
    rw [CBuffer.Offers, h.getWriteableBytes_eq]
    exact hoffers
  rw [← h.readRoom_iff] at hnot
  exact CBuffer.readFd_ne_ok_of_not_room h.wellFormed hoffers' hnot q hfd

end reads

/-! ## All reads -/

/-- `readv` returns an error, or some bytes and no more than it was offered, when the largest read
so far has left `nCap` bytes. -/
def Offered (nCap : ℕ) : List ReadvResult → Prop
  | [] => True
  | .error _ :: results => Offered nCap results
  | .bytes data :: results =>
      (data ≠ [] ∧ data.length ≤ nCap + extraBufSize) ∧ Offered (max nCap data.length) results

/-- Every read can be stored: it is no longer than the longest one before it, or by more than the
cheap prepend and then not too long for a vector. -/
def Stored (nCap : ℕ) : List ReadvResult → Prop
  | [] => True
  | .error _ :: results => Stored nCap results
  | .bytes data :: results =>
      Storable nCap data.length ∧ Stored (max nCap data.length) results

/-- The reads as they are to be printed. -/
def printedAs : ReadvResult → List Printed
  | .error _ => []
  | .bytes data => [⟨data.length, cStr data⟩]

/-- A failed read changes nothing. -/
theorem readEvent_error (c : BufferedConnection) (errno : ℤ) :
    c.readEvent (.error errno) = .ok (c, []) := by
  have hread : c.handleRead (.error errno) = .ok (c, none) :=
    ConnectionOver.handleRead_of_neg ops rfl CBuffer.sizeToSsize_error
  rw [readEvent, hread]
  rfl

/-- Read events from an empty buffer. -/
theorem Emptied.readEvents {results : List ReadvResult} {nCap : ℕ} {c : BufferedConnection}
    (h : c.Emptied nCap) (hoffered : Offered nCap results) :
    (Stored nCap results →
      ∃ c', c.readEvents results = .ok (c', results.flatMap printedAs)) ∧
    (¬ Stored nCap results → ∀ r, c.readEvents results ≠ .ok r) := by
  induction results generalizing nCap c with
  | nil => exact ⟨fun _ => ⟨c, rfl⟩, fun hnot => absurd trivial hnot⟩
  | cons result results ih =>
      cases result with
      | error errno =>
          obtain ⟨hgood, hbad⟩ := ih h hoffered
          refine ⟨fun hstored => ?_, fun hnot r hok => ?_⟩
          · obtain ⟨c', hok⟩ := hgood hstored
            refine ⟨c', ?_⟩
            rw [BufferedConnection.readEvents, readEvent_error, ok_bind]
            dsimp only
            rw [hok]
            rfl
          · obtain ⟨p, hp, hok⟩ := bind_eq_ok_iff.mp hok
            cases Except.ok.inj hp
            obtain ⟨q, hq, -⟩ := bind_eq_ok_iff.mp hok
            exact hbad hnot q hq
      | bytes data =>
          obtain ⟨⟨hdata, hoffers⟩, hrest⟩ := hoffered
          refine ⟨fun hstored => ?_, fun hnot r hok => ?_⟩
          · obtain ⟨c₁, hevent, hemptied⟩ := h.readEvent hoffers hdata hstored.1
            obtain ⟨c', hok⟩ := (ih hemptied hrest).1 hstored.2
            refine ⟨c', ?_⟩
            rw [BufferedConnection.readEvents, hevent, ok_bind]
            dsimp only
            rw [hok]
            rfl
          · obtain ⟨p, hp, hok⟩ := bind_eq_ok_iff.mp hok
            obtain ⟨q, hq, -⟩ := bind_eq_ok_iff.mp hok
            by_cases hstorable : Storable nCap data.length
            · obtain ⟨c₁, hevent, hemptied⟩ := h.readEvent hoffers hdata hstorable
              rw [hp] at hevent
              cases Except.ok.inj hevent
              exact (ih hemptied hrest).2 (fun hstored => hnot ⟨hstorable, hstored⟩) q hq
            · exact h.readEvent_ne_ok hoffers hstorable p hp

/-- **The server of `main.cpp` survives exactly the reads that can be stored.** For the read events
of a new connection, with any results of `readv` before the end of the stream: they all return
exactly if each read is at most 1024 bytes or at most as long as a read before it, or longer than
these by more than eight bytes and, with the cheap prepend, no longer than a vector can be. Then
every read is printed, in order and on its own, with its length and its text. -/
theorem readEvents_iff {results : List ReadvResult} (hoffered : Offered initialSize results) :
    ((∃ r, new.readEvents results = .ok r) ↔ Stored initialSize results) ∧
      ∀ r, new.readEvents results = .ok r → r.2 = results.flatMap printedAs := by
  have hnew : new.Emptied initialSize :=
    ⟨CBuffer.wellFormed_new, rfl, rfl, List.length_replicate⟩
  obtain ⟨hgood, hbad⟩ := hnew.readEvents hoffered
  have hstored : ∀ r, new.readEvents results = .ok r → Stored initialSize results := by
    intro r hok
    by_contra hnot
    exact hbad hnot r hok
  refine ⟨⟨fun ⟨r, hok⟩ => hstored r hok, fun h => ?_⟩, fun r hok => ?_⟩
  · obtain ⟨c', hok⟩ := hgood h
    exact ⟨_, hok⟩
  · obtain ⟨c', hok'⟩ := hgood (hstored r hok)
    rw [hok] at hok'
    cases Except.ok.inj hok'
    rfl

/-- The theorem on two reads, the second of which is too long by one byte. -/
theorem readEvents_iff_1025 :
    ¬ ∃ r, new.readEvents [.bytes [7], .bytes (List.replicate 1025 7)] = .ok r := by
  have hn : (List.replicate 1025 (7 : Byte)).length = 1025 := List.length_replicate
  have hoffered : Offered initialSize [.bytes [7], .bytes (List.replicate 1025 7)] := by
    refine ⟨⟨List.cons_ne_nil _ _, by decide⟩, ⟨List.cons_ne_nil _ _, ?_⟩, trivial⟩
    rw [hn]
    decide
  have hnot : ¬ Storable (max initialSize 1) 1025 := by decide
  rw [(readEvents_iff hoffered).1]
  rintro ⟨-, hstorable, -⟩
  rw [hn] at hstorable
  exact hnot hstorable

end BufferedConnection

end Neconet
